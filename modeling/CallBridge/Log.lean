/-!
# The log of a run

What happens during a run is recorded, each record with a level.  The options
`-v` and `-q` decide which levels are shown; they decide nothing else.

`Recorded` is a value with the records made on the way to it.  What is done one
after the other is recorded in this order (`records_bind`).
-/

namespace CallBridge.Log

/-- The weight of a record, the gravest first. -/
inductive Level where
  | error
  | warn
  | info
  | debug
  | trace
  deriving DecidableEq, Repr

namespace Level

/-- The place of a level, from the gravest on. -/
def rank : Level → Nat
  | error => 1
  | warn => 2
  | info => 3
  | debug => 4
  | trace => 5

/-- How a level is called in front of a record. -/
def tag : Level → String
  | error => "error"
  | warn => "warning"
  | info => "info"
  | debug => "debug"
  | trace => "trace"

end Level

/-- Something that happened during a run. -/
structure Record where
  level : Level
  message : String
  deriving DecidableEq, Repr

/-- A value, and the records made on the way to it. -/
structure Recorded (α : Type) where
  value : α
  records : List Record := []

namespace Recorded

variable {α β : Type}

/-- Makes one record. -/
def log (level : Level) (message : String) : Recorded Unit :=
  ⟨(), [⟨level, message⟩]⟩

instance : Monad Recorded where
  pure a := ⟨a, []⟩
  bind x f := ⟨(f x.value).value, x.records ++ (f x.value).records⟩

@[simp]
theorem value_pure (a : α) : (pure a : Recorded α).value = a :=
  rfl

@[simp]
theorem records_pure (a : α) : (pure a : Recorded α).records = [] :=
  rfl

/-- What is done later is recorded later. -/
@[simp]
theorem records_bind (x : Recorded α) (f : α → Recorded β) :
    (x >>= f).records = x.records ++ (f x.value).records :=
  rfl

theorem mk_bind (a : α) (records : List Record) (f : α → Recorded β) :
    (mk a records >>= f) = ⟨(f a).value, records ++ (f a).records⟩ :=
  rfl

instance : LawfulMonad Recorded :=
  LawfulMonad.mk' Recorded
    (fun x => congrArg (mk x.value) (List.append_nil x.records))
    (fun _ _ => rfl)
    (fun x f g => congrArg (mk _) (List.append_assoc x.records _ (g _).records))

/-- Making something of each of several things, with a record for each. -/
theorem mapM_log (level : Level) (message : α → String) (make : α → β) (xs : List α) :
    (xs.mapM fun x => do log level (message x); return make x) =
      (⟨xs.map make, xs.map fun x => ⟨level, message x⟩⟩ : Recorded (List β)) := by
  induction xs with
  | nil => rfl
  | cons x xs ih =>
    rw [List.mapM_cons, ih, List.map_cons, List.map_cons]
    exact congrArg (fun records => mk _ (⟨level, message x⟩ :: records)) (List.append_nil _)

/-- The value at the end of a loop is the one that its steps lead to. -/
theorem value_foldlM (step : β → α → Recorded β) (xs : List α) (start : β) :
    (xs.foldlM step start).value = xs.foldl (fun state x => (step state x).value) start := by
  induction xs generalizing start with
  | nil => rfl
  | cons x xs ih => exact ih (step start x).value

end Recorded

/-- The lightest level that is shown, given how often `-v` and whether `-q` is
asked for. -/
def threshold (verbose : Nat) (quiet : Bool) : Level :=
  if quiet then .error
  else
    match verbose with
    | 0 => .warn
    | 1 => .info
    | 2 => .debug
    | _ => .trace

/-- Whether a record is shown. -/
def Record.isShown (threshold : Level) (record : Record) : Bool :=
  decide (record.level.rank ≤ threshold.rank)

/-- The records that are shown. -/
def shown (threshold : Level) (records : List Record) : List Record :=
  records.filter (·.isShown threshold)

end CallBridge.Log
