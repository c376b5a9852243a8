import Declarations.Store.Basic

/-!
# Edits of a store

An edit reads and changes a store and may be refused. The store that an edit leaves is part of its
result also when it is refused, so that "a refused edit changes nothing" is a statement about each
edit and not a matter of its type.
-/

namespace Declarations

/-- A change of a store that may be refused with an error. -/
abbrev Edit (ε α : Type) := ExceptT ε (StateM Store) α

namespace Edit

variable {ε α β : Type}

/-- The outcome of an edit, and the store it leaves. -/
def apply (edit : Edit ε α) (store : Store) : Except ε α × Store :=
  edit.run.run store

@[simp] theorem apply_pure (value : α) (store : Store) :
    apply (pure value : Edit ε α) store = (.ok value, store) := rfl

@[simp] theorem apply_throw (error : ε) (store : Store) :
    apply (throw error : Edit ε α) store = (.error error, store) := rfl

@[simp] theorem apply_get (store : Store) :
    apply (get : Edit ε Store) store = (.ok store, store) := rfl

@[simp] theorem apply_set (new store : Store) :
    apply (set new : Edit ε PUnit) store = (.ok ⟨⟩, new) := rfl

/-- A sequence stops at the first refusal, with the store as that leaves it. -/
@[simp] theorem apply_bind (first : Edit ε α) (next : α → Edit ε β) (store : Store) :
    apply (first >>= next) store =
      match apply first store with
      | (.ok value, left) => apply (next value) left
      | (.error error, left) => (.error error, left) := by
  simp only [apply, ExceptT.run, StateT.run, bind, ExceptT.bind, ExceptT.mk, StateT.bind]
  cases first store with
  | mk result left => cases result <;> rfl

end Edit

end Declarations
