import CallBridge.Header.Reader
import CallBridge.Registry
import CallBridge.Signature

/-!
# Sources of declarations

A source hands out declarations one by one and knows where they come from.  It is
read from a header, from a registry, or given as a list.
-/

namespace CallBridge

/-- Declarations that are still to be handed out, and where they come from. -/
structure Source where
  provenance : String
  pending : List Declaration
  deriving DecidableEq, Repr

namespace Source

/-- Hands out the next declaration. -/
def next (s : Source) : Option Declaration × Source :=
  match s.pending with
  | [] => (none, s)
  | d :: ds => (some d, { s with pending := ds })

/-- How many declarations are still to be handed out. -/
def size (s : Source) : Nat :=
  s.pending.length

/-- The source of a header. -/
def ofHeader (provenance text : String) : Except Header.Fault Source :=
  (Header.declarations text).map fun ds => ⟨provenance, ds⟩

/-- The source of a registry for one API. -/
def ofRegistry (provenance text api : String) : Except Report Source :=
  (Registry.declarations text api).map fun ds => ⟨provenance, ds⟩

end Source

end CallBridge
