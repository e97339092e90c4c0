import WidgetFlow.Settings
import WidgetFlow.Framework

/-!
# The standard settings
-/

namespace WidgetFlow.Settings

/-- The methods of an activity that the framework runs. -/
def standardCallbacks : List String := [
  "void onCreate(android.os.Bundle)",
  "void onStart()",
  "void onRestart()",
  "void onResume()",
  "void onPause()",
  "void onStop()",
  "void onDestroy()",
  "void onPostCreate(android.os.Bundle)",
  "void onNewIntent(android.content.Intent)",
  "void onActivityResult(int,int,android.content.Intent)",
  "boolean onCreateOptionsMenu(android.view.Menu)",
  "boolean onPrepareOptionsMenu(android.view.Menu)",
  "boolean onOptionsItemSelected(android.view.MenuItem)",
  "boolean onMenuItemSelected(int,android.view.MenuItem)",
  Framework.onCreateContextMenu,
  "boolean onContextItemSelected(android.view.MenuItem)",
  "android.app.Dialog onCreateDialog(int)",
  "void onPrepareDialog(int,android.app.Dialog)",
  "void onListItemClick(android.widget.ListView,android.view.View,int,long)",
  "void onBackPressed()",
  "void onSaveInstanceState(android.os.Bundle)",
  "void onRestoreInstanceState(android.os.Bundle)"
]

/-- The listeners of views and menu items. -/
def standardListeners : List ListenerSpec := [
  { guiType := "android.view.View"
    event := .click
    registration := "void setOnClickListener(android.view.View$OnClickListener)"
    position := 0
    listenerType := "android.view.View$OnClickListener"
    handlers := [⟨"void onClick(android.view.View)", some 0⟩] },
  { guiType := "android.view.View"
    event := .longClick
    registration := "void setOnLongClickListener(android.view.View$OnLongClickListener)"
    position := 0
    listenerType := "android.view.View$OnLongClickListener"
    handlers := [⟨"boolean onLongClick(android.view.View)", some 0⟩] },
  { guiType := "android.view.View"
    event := .touch
    registration := "void setOnTouchListener(android.view.View$OnTouchListener)"
    position := 0
    listenerType := "android.view.View$OnTouchListener"
    handlers := [⟨"boolean onTouch(android.view.View,android.view.MotionEvent)", some 0⟩] },
  { guiType := "android.view.View"
    event := .focusChange
    registration := "void setOnFocusChangeListener(android.view.View$OnFocusChangeListener)"
    position := 0
    listenerType := "android.view.View$OnFocusChangeListener"
    handlers := [⟨"void onFocusChange(android.view.View,boolean)", some 0⟩] },
  { guiType := "android.view.View"
    event := .pressKey
    registration := "void setOnKeyListener(android.view.View$OnKeyListener)"
    position := 0
    listenerType := "android.view.View$OnKeyListener"
    handlers := [⟨"boolean onKey(android.view.View,int,android.view.KeyEvent)", some 0⟩] },
  { guiType := "android.view.View"
    event := .implicitCreateContextMenu
    registration := "void setOnCreateContextMenuListener(android.view.View$OnCreateContextMenuListener)"
    position := 0
    listenerType := "android.view.View$OnCreateContextMenuListener"
    handlers := [⟨Framework.onCreateContextMenu, some 1⟩] },
  { guiType := "android.widget.TextView"
    event := .editorAction
    registration := "void setOnEditorActionListener(android.widget.TextView$OnEditorActionListener)"
    position := 0
    listenerType := "android.widget.TextView$OnEditorActionListener"
    handlers := [⟨"boolean onEditorAction(android.widget.TextView,int,android.view.KeyEvent)", some 0⟩] },
  { guiType := "android.widget.AdapterView"
    event := .itemClick
    registration := "void setOnItemClickListener(android.widget.AdapterView$OnItemClickListener)"
    position := 0
    listenerType := "android.widget.AdapterView$OnItemClickListener"
    handlers := [⟨"void onItemClick(android.widget.AdapterView,android.view.View,int,long)", some 1⟩] },
  { guiType := "android.widget.AdapterView"
    event := .itemLongClick
    registration := "void setOnItemLongClickListener(android.widget.AdapterView$OnItemLongClickListener)"
    position := 0
    listenerType := "android.widget.AdapterView$OnItemLongClickListener"
    handlers := [⟨"boolean onItemLongClick(android.widget.AdapterView,android.view.View,int,long)", some 1⟩] },
  { guiType := "android.widget.AdapterView"
    event := .itemSelected
    registration := "void setOnItemSelectedListener(android.widget.AdapterView$OnItemSelectedListener)"
    position := 0
    listenerType := "android.widget.AdapterView$OnItemSelectedListener"
    handlers := [⟨"void onItemSelected(android.widget.AdapterView,android.view.View,int,long)", some 1⟩,
      ⟨"void onNothingSelected(android.widget.AdapterView)", none⟩] },
  { guiType := "android.widget.AbsListView"
    event := .scroll
    registration := "void setOnScrollListener(android.widget.AbsListView$OnScrollListener)"
    position := 0
    listenerType := "android.widget.AbsListView$OnScrollListener"
    handlers := [⟨"void onScroll(android.widget.AbsListView,int,int,int)", some 0⟩,
      ⟨"void onScrollStateChanged(android.widget.AbsListView,int)", some 0⟩] },
  { guiType := "android.widget.CompoundButton"
    event := .select
    registration := "void setOnCheckedChangeListener(android.widget.CompoundButton$OnCheckedChangeListener)"
    position := 0
    listenerType := "android.widget.CompoundButton$OnCheckedChangeListener"
    handlers := [⟨"void onCheckedChanged(android.widget.CompoundButton,boolean)", some 0⟩] },
  { guiType := "android.view.MenuItem"
    event := .click
    registration := "android.view.MenuItem setOnMenuItemClickListener(android.view.MenuItem$OnMenuItemClickListener)"
    position := 0
    listenerType := "android.view.MenuItem$OnMenuItemClickListener"
    handlers := [⟨"boolean onMenuItemClick(android.view.MenuItem)", some 0⟩] }
]

/-- The settings that hold when none are given. -/
def standard : Settings where
  strict := false
  apiLevel := 19
  activityCallbacks := standardCallbacks
  listeners := standardListeners

end WidgetFlow.Settings
