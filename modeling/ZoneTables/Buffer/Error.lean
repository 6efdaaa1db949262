import ZoneTables.Calendar.Year

/-!
# Faults of transition buffers
-/

namespace ZoneTables

inductive BufferError where
  | noActiveEra (zone : String) (year : Int)
  | unknownPolicy (zone policy : String)
  | emptyPolicy (zone policy : String)
  | noPriorRule (zone policy : String) (year : Int)
  | invalidRuleDate (policy : String) (year : Int)
  | windowOutOfRange (window : Window)
  | tooLarge (size capacity : Nat) (zone : String) (year : Int)
deriving DecidableEq

namespace BufferError

def message : BufferError → String
  | noActiveEra zone year => s!"zone '{zone}' has no era active in {year}"
  | unknownPolicy zone policy =>
    s!"zone '{zone}' references policy '{policy}', which is missing"
  | emptyPolicy zone policy =>
    s!"zone '{zone}' references policy '{policy}', which has no rules"
  | noPriorRule zone policy year =>
    s!"zone '{zone}': policy '{policy}' has no rule before {year}"
  | invalidRuleDate policy year =>
    s!"policy '{policy}' selects a non-existent date in {year}"
  | windowOutOfRange window =>
    s!"year window {window.text} cannot be simulated"
  | tooLarge size capacity zone year =>
    s!"max buffer size {size} (zone '{zone}' in {year}) exceeds the " ++
      s!"runtime capacity of {capacity} transitions"

end BufferError

end ZoneTables
