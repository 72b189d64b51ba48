/-!
# Parts of a state

A lens picks a part out of a larger state. An action on the part is an action on the whole that
leaves everything else as it is.
-/

namespace TreeProtocol

/-- A part `A` of a state `W` that can be read and replaced. -/
structure Lens (W A : Type) where
  get : W → A
  set : A → W → W
  get_set : ∀ a w, get (set a w) = a := by intros; rfl
  set_get : ∀ w, set (get w) w = w := by intros; rfl
  set_set : ∀ a b w, set a (set b w) = set a w := by intros; rfl

namespace Lens

variable {W A B C : Type}

/-- The whole state. -/
def whole : Lens W W where
  get := id
  set a _ := a

/-- The first component of a pair. -/
def fst : Lens (A × B) A where
  get := Prod.fst
  set a w := (a, w.2)

/-- The second component of a pair. -/
def snd : Lens (A × B) B where
  get := Prod.snd
  set b w := (w.1, b)

/-- An entry of a vector. -/
def entry {n : Nat} (i : Fin n) : Lens (Vector A n) A where
  get v := v[i]
  set a v := v.set i a
  get_set a v := by simp
  set_get v := by simp
  set_set a b v := by simp

/-- A part of a part. -/
def comp (outer : Lens W A) (inner : Lens A C) : Lens W C where
  get w := inner.get (outer.get w)
  set c w := outer.set (inner.set c (outer.get w)) w
  get_set c w := by simp [outer.get_set, inner.get_set]
  set_get w := by simp [inner.set_get, outer.set_get]
  set_set c d w := by simp [outer.get_set, outer.set_set, inner.set_set]

/-- Changes the part and leaves the rest. -/
def modify (l : Lens W A) (f : A → A) (w : W) : W := l.set (f (l.get w)) w

end Lens

end TreeProtocol
