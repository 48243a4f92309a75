/-!
# Tables in order of first entry

A table maps keys to values and remembers the order in which keys came up first.
A later value for a known key takes the place of the earlier one; the key keeps
its place.  Declarations, retention decisions and wrappers are kept in such
tables.

The entries of a table are a list of pairs.  `keys_put` says what an entry does to
the keys and `get?_put_self` and `get?_put_of_ne` what it does to the values.
-/

namespace CallBridge

/-- A table: its entries in order of first entry. -/
abbrev Table (α : Type) := List (String × α)

namespace Table

variable {α : Type}

/-- Enters a value: in the place of the key if it is known, at the end if not. -/
def put (key : String) (value : α) : Table α → Table α
  | [] => [(key, value)]
  | entry :: rest =>
    if entry.1 = key then (key, value) :: rest else entry :: put key value rest

/-- The value under a key. -/
def get? (key : String) : Table α → Option α
  | [] => none
  | entry :: rest => if entry.1 = key then some entry.2 else get? key rest

/-- The keys, in order. -/
def keys (table : Table α) : List String :=
  table.map Prod.fst

/-- Whether a key is known. -/
def has (key : String) (table : Table α) : Bool :=
  (get? key table).isSome

/-- Enters one pair after the other. -/
def ofList (entries : List (String × α)) : Table α :=
  entries.foldl (fun table entry => put entry.1 entry.2 table) []

theorem get?_put_self (key : String) (value : α) (table : Table α) :
    get? key (put key value table) = some value := by
  induction table with
  | nil => simp [put, get?]
  | cons entry rest ih =>
    by_cases h : entry.1 = key
    · simp [put, get?, h]
    · simp [put, get?, h, ih]

theorem get?_put_of_ne {key other : String} (h : other ≠ key) (value : α) (table : Table α) :
    get? other (put key value table) = get? other table := by
  induction table with
  | nil => simp [put, get?, Ne.symm h]
  | cons entry rest ih =>
    by_cases he : entry.1 = key
    · simp [put, get?, he, Ne.symm h]
    · by_cases ho : entry.1 = other
      · simp [put, get?, ho, h]
      · simp [put, get?, he, ho, ih]

/-- A known key keeps its place and a new one goes to the end. -/
theorem keys_put (key : String) (value : α) (table : Table α) :
    keys (put key value table) =
      if key ∈ keys table then keys table else keys table ++ [key] := by
  induction table with
  | nil => simp [put, keys]
  | cons entry rest ih =>
    by_cases h : entry.1 = key
    · simp [put, keys, h]
    · have h' : ¬ key = entry.1 := fun e => h e.symm
      simp only [keys] at ih
      simp only [put, h, if_false, keys, List.map_cons, ih, List.mem_cons, h', false_or]
      split <;> simp_all

end Table

end CallBridge
