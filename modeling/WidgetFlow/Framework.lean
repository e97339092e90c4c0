import WidgetFlow.Code.Hierarchy

/-!
# The names of the framework

The classes and the methods of the framework that the analysis knows, and the kinds of classes that it tells apart.
Methods are given by their sub-signatures.
-/

namespace WidgetFlow

namespace Framework

/-! ## Classes -/

def object : String := "java.lang.Object"
def view : String := "android.view.View"
def button : String := "android.widget.Button"
def frameLayout : String := "android.widget.FrameLayout"
def menu : String := "android.view.Menu"
def contextMenu : String := "android.view.ContextMenu"
def menuItem : String := "android.view.MenuItem"
def menuInflater : String := "android.view.MenuInflater"
def layoutInflater : String := "android.view.LayoutInflater"
def activity : String := "android.app.Activity"
def listActivity : String := "android.app.ListActivity"
def preferenceActivity : String := "android.preference.PreferenceActivity"
def dialog : String := "android.app.Dialog"
def alertDialog : String := "android.app.AlertDialog"
def alertDialogBuilder : String := "android.app.AlertDialog$Builder"
def timePickerDialog : String := "android.app.TimePickerDialog"
def datePickerDialog : String := "android.app.DatePickerDialog"
def listView : String := "android.widget.ListView"
def gridView : String := "android.widget.GridView"
def listAdapter : String := "android.widget.ListAdapter"
def baseAdapter : String := "android.widget.BaseAdapter"
def arrayAdapter : String := "android.widget.ArrayAdapter"
def tabHost : String := "android.widget.TabHost"
def tabSpec : String := "android.widget.TabHost$TabSpec"
def tabWidget : String := "android.widget.TabWidget"
def message : String := "android.os.Message"
def onClickListener : String := "android.view.View$OnClickListener"
def onItemClickListener : String := "android.widget.AdapterView$OnItemClickListener"

/-! ## Layouts and window content -/

def setContentViewId : String := "void setContentView(int)"

def setContentView : List String := [
  "void setContentView(android.view.View)",
  "void setContentView(android.view.View,android.view.ViewGroup$LayoutParams)"]

def inflate : String := "android.view.View inflate(int,android.view.ViewGroup)"
def inflateAttach : String := "android.view.View inflate(int,android.view.ViewGroup,boolean)"
def viewInflate : String := "android.view.View inflate(android.content.Context,int,android.view.ViewGroup)"

/-! ## Views -/

def findViewById : String := "android.view.View findViewById(int)"
def setId : String := "void setId(int)"
def setImageResource : String := "void setImageResource(int)"
def addView : String := "addView"
def onFinishInflate : String := "void onFinishInflate()"
def run : String := "void run()"

/-- These find a view at or below the receiver. -/
def descendantQueries : List String := [
  "android.view.View findFocus()",
  "android.view.View findViewWithTag(java.lang.Object)",
  "android.view.View focusSearch(int)",
  "android.view.View focusSearch(android.view.View,int)"]

/-- These find a child of the receiver. -/
def childQueries : List String := [
  "android.view.View getChildAt(int)",
  "android.view.View getFocusedChild()",
  "android.view.View getCurrentView()",
  "android.view.View getSelectedView()",
  "android.view.MenuItem getItem(int)"]

/-! ## Menus -/

def findItem : String := "android.view.MenuItem findItem(int)"

def menuAdd : List String := [
  "android.view.MenuItem add(java.lang.CharSequence)",
  "android.view.MenuItem add(int)",
  "android.view.MenuItem add(int,int,int,int)",
  "android.view.MenuItem add(int,int,int,java.lang.CharSequence)"]

def setTitle : List String := [
  "android.view.MenuItem setTitle(java.lang.CharSequence)",
  "android.view.MenuItem setTitle(int)"]

def menuInflate : String := "void inflate(int,android.view.Menu)"
def onCreateOptionsMenu : String := "boolean onCreateOptionsMenu(android.view.Menu)"
def onPrepareOptionsMenu : String := "boolean onPrepareOptionsMenu(android.view.Menu)"
def onOptionsItemSelected : String := "boolean onOptionsItemSelected(android.view.MenuItem)"
def onMenuItemSelected : String := "boolean onMenuItemSelected(int,android.view.MenuItem)"
def onContextItemSelected : String := "boolean onContextItemSelected(android.view.MenuItem)"

def onCreateContextMenu : String :=
  "void onCreateContextMenu(android.view.ContextMenu,android.view.View,android.view.ContextMenu$ContextMenuInfo)"

def viewOnCreateContextMenu : String := "void onCreateContextMenu(android.view.ContextMenu)"
def registerForContextMenu : String := "void registerForContextMenu(android.view.View)"
def setOnCreateContextMenuListener : String := "setOnCreateContextMenuListener"

/-! ## Tabs -/

def getTabHost : String := "android.widget.TabHost getTabHost()"
def addTab : String := "void addTab(android.widget.TabHost$TabSpec)"
def newTabSpec : String := "android.widget.TabHost$TabSpec newTabSpec(java.lang.String)"

def setIndicatorLabel : List String := [
  "android.widget.TabHost$TabSpec setIndicator(java.lang.CharSequence)",
  "android.widget.TabHost$TabSpec setIndicator(java.lang.CharSequence,android.graphics.drawable.Drawable)"]

def setIndicatorView : String := "android.widget.TabHost$TabSpec setIndicator(android.view.View)"
def setContentLayout : String := "android.widget.TabHost$TabSpec setContent(int)"

def setContentFactory : String :=
  "android.widget.TabHost$TabSpec setContent(android.widget.TabHost$TabContentFactory)"

def setContentIntent : String := "android.widget.TabHost$TabSpec setContent(android.content.Intent)"
def createTabContent : String := "android.view.View createTabContent(java.lang.String)"

/-! ## Lists -/

def getListView : String := "android.widget.ListView getListView()"
def setAdapter : String := "void setAdapter(android.widget.ListAdapter)"
def getView : String := "android.view.View getView(int,android.view.View,android.view.ViewGroup)"
def onListItemClick : String := "void onListItemClick(android.widget.ListView,android.view.View,int,long)"

/-! ## Dialogs -/

def showDialog : List String := ["void showDialog(int)", "boolean showDialog(int,android.os.Bundle)"]
def dismissDialog : List String := ["void dismissDialog(int)", "void removeDialog(int)"]

def onCreateDialog : List String := [
  "android.app.Dialog onCreateDialog(int)",
  "android.app.Dialog onCreateDialog(int,android.os.Bundle)"]

def onPrepareDialog : List String := [
  "void onPrepareDialog(int,android.app.Dialog)",
  "void onPrepareDialog(int,android.app.Dialog,android.os.Bundle)"]

def dialogLifecycle : List String := [
  "void onCreate(android.os.Bundle)",
  "void onStart()",
  "void onStop()"]

def dialogOnCancel : String := "void onCancel(android.content.DialogInterface)"
def dialogOnDismiss : String := "void onDismiss(android.content.DialogInterface)"
def dialogOnKey : String := "boolean onKey(android.content.DialogInterface,int,android.view.KeyEvent)"
def dialogOnShow : String := "void onShow(android.content.DialogInterface)"
def dialogOnClick : String := "void onClick(android.content.DialogInterface,int)"

end Framework

/-! ## Kinds of classes -/

namespace Program

variable (p : Program) (cls : String)

def isView : Bool := p.isSubtype cls Framework.view

def isMenu : Bool := p.isSubtype cls Framework.menu

def isMenuItem : Bool := p.isSubtype cls Framework.menuItem

def isActivity : Bool := p.isSubtype cls Framework.activity

def isDialog : Bool := p.isSubtype cls Framework.dialog

/-- Activities and dialogs have a window. -/
def isWindow : Bool := p.isActivity cls || p.isDialog cls

/-- Events happen on views and on menu items. -/
def isViewOrMenuItem : Bool := p.isView cls || p.isMenuItem cls

end Program

end WidgetFlow
