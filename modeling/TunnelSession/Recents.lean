/-
  Recently used servers.

  A list of ids, the latest first, without repetitions and of at most five (`Recents.push`).
-/

namespace TunnelSession

/-- Ids of servers, the latest first. -/
structure Recents where
  ids : List String
  deriving DecidableEq, Repr

namespace Recents

/-- The most ids that are kept. -/
def limit : Nat := 5

/-- No server was used yet. -/
def empty : Recents := ⟨[]⟩

instance : Inhabited Recents := ⟨empty⟩

/-- Put an id in front and forget the oldest past the limit. -/
def push (r : Recents) (id : String) : Recents :=
  ⟨(id :: r.ids.filter (· ≠ id)).take limit⟩

/-- Is the id among them? -/
def contains (r : Recents) (id : String) : Bool := r.ids.contains id

theorem head?_push (r : Recents) (id : String) : (r.push id).ids.head? = some id := rfl

example : (((empty.push "a").push "b").push "a").ids = ["a", "b"] := by decide

end Recents

end TunnelSession
