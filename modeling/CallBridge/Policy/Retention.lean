import CallBridge.Signature
import CallBridge.Table

/-!
# Which functions get a wrapper, and of which kind

A function that another subsystem owns gets no wrapper.  If there is a dispatch
table, a function outside of it gets none either.  The feature that introduced a
function decides how its wrapper calls it: functions of the baseline are called
directly, all others through a pointer that is resolved by name.

`Rules.decide` takes the decision for one function, and `Rules.classify` for a
whole sequence of declarations.
-/

namespace CallBridge.Policy

/-- How a wrapper calls the function it wraps. -/
inductive Strategy where
  | direct
  | resolved
  deriving DecidableEq, Repr

/-- The name of a strategy in the log. -/
def Strategy.label : Strategy → String
  | direct => "DirectCall"
  | resolved => "ResolveAndCall"

/-- Why a function gets no wrapper. -/
inductive Omission where
  /-- Another subsystem owns it. -/
  | excluded
  /-- The dispatch table has no slot for it. -/
  | unlisted
  deriving DecidableEq, Repr

/-- What is decided about a function: how it would be called, and why it gets no
wrapper, if so. -/
structure Decision where
  strategy : Strategy
  omission : Option Omission
  deriving DecidableEq, Repr

/-- Whether the function gets a wrapper. -/
def Decision.isRetained (d : Decision) : Bool :=
  d.omission.isNone

/-- The rules by which functions are retained. -/
structure Rules where
  /-- Names that are never wrapped. -/
  exclusions : List String
  /-- The only names that are wrapped, if there is such a limit. -/
  inclusion : Option (List String)
  /-- Features whose functions are called directly. -/
  baseline : List String
  deriving DecidableEq, Repr

namespace Rules

/-- Whether a feature belongs to the baseline. -/
def isBaseline (rules : Rules) (feature : String) : Bool :=
  rules.baseline.contains feature

/-- How the functions of a feature are called. -/
def strategy (rules : Rules) (feature : String) : Strategy :=
  if rules.isBaseline feature then .direct else .resolved

/-- Whether a name is excluded. -/
def isExcluded (rules : Rules) (name : String) : Bool :=
  rules.exclusions.contains name

/-- Whether the limit on names, if there is one, admits a name. -/
def isIncluded (rules : Rules) (name : String) : Bool :=
  match rules.inclusion with
  | none => true
  | some names => names.contains name

/-- Why a name gets no wrapper.  Exclusion comes first. -/
def omission (rules : Rules) (name : String) : Option Omission :=
  if rules.isExcluded name then some .excluded
  else if rules.isIncluded name then none
  else some .unlisted

/-- The decision about a function of a feature. -/
def decide (rules : Rules) (name feature : String) : Decision :=
  ⟨rules.strategy feature, rules.omission name⟩

/-- The decisions about declared functions, in order of first declaration.  The
last declaration of a name decides. -/
def classify (rules : Rules) (declarations : List Declaration) : Table Decision :=
  declarations.foldl
    (fun table d => table.put d.name (rules.decide d.name d.feature)) []

end Rules

/-- The retained names and how they are called, in order. -/
def retained (table : Table Decision) : List (String × Strategy) :=
  (table.filter fun entry => entry.2.isRetained).map fun entry => (entry.1, entry.2.strategy)

end CallBridge.Policy
