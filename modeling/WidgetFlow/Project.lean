import WidgetFlow.Code.Program
import WidgetFlow.Resources

/-!
# Projects
-/

namespace WidgetFlow

/-- An application: its program and its resources. -/
structure Project where
  program : Program
  resources : Resources

end WidgetFlow
