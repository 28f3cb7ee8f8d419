/-!
# How parts of a computation end

`Ensures x c ok err` says how the part `x` of a computation with a state and failures ends when it
begins in `c`: with a value and a state that satisfy `ok`, or with an error and a state that satisfy
`err`.  There is one rule for each way to put parts together.
-/

namespace Playground

variable {ε S α β : Type} {x : ExceptT ε (StateM S) α} {c : S} {ok ok' : α → S → Prop}
  {err err' : ε → S → Prop}

/-- How a part of a computation that begins in `c` ends. -/
def Ensures (x : ExceptT ε (StateM S) α) (c : S) (ok : α → S → Prop) (err : ε → S → Prop) : Prop :=
  match x.run c with
  | (.ok a, c') => ok a c'
  | (.error e, c') => err e c'

namespace Ensures

/-- How a part of a computation ends is decided by running it. -/
instance [∀ a c', Decidable (ok a c')] [∀ e c', Decidable (err e c')] :
    Decidable (Ensures x c ok err) :=
  match h : x.run c with
  | (.ok a, c') => decidable_of_iff (ok a c') (by rw [Ensures, h])
  | (.error e, c') => decidable_of_iff (err e c') (by rw [Ensures, h])

theorem mono (h : Ensures x c ok err) (hok : ∀ a c', ok a c' → ok' a c')
    (herr : ∀ e c', err e c' → err' e c') : Ensures x c ok' err' := by
  unfold Ensures at h ⊢
  split
  · rename_i a c' he
    rw [he] at h
    exact hok a c' h
  · rename_i e c' he
    rw [he] at h
    exact herr e c' h

theorem and (h : Ensures x c ok err) (h' : Ensures x c ok' err') :
    Ensures x c (fun a c' => ok a c' ∧ ok' a c') (fun e c' => err e c' ∧ err' e c') := by
  unfold Ensures at h h' ⊢
  split
  · rename_i a c' he
    rw [he] at h h'
    exact ⟨h, h'⟩
  · rename_i e c' he
    rw [he] at h h'
    exact ⟨h, h'⟩

theorem pure_iff {a : α} : Ensures (pure a : ExceptT ε (StateM S) α) c ok err ↔ ok a c := Iff.rfl

theorem throw_iff {e : ε} : Ensures (throw e : ExceptT ε (StateM S) α) c ok err ↔ err e c := Iff.rfl

theorem bind_iff {k : β → ExceptT ε (StateM S) α} {x : ExceptT ε (StateM S) β} :
    Ensures (x >>= k) c ok err ↔ Ensures x c (fun b c' => Ensures (k b) c' ok err) err := by
  have hrun : (x >>= k).run c =
      match x.run c with
      | (.ok b, c') => (k b).run c'
      | (.error e, c') => (.error e, c') := by
    show (ExceptT.bindCont k (x.run c).1 : StateM _ _) (x.run c).2 = _
    obtain ⟨r, c'⟩ := x.run c
    cases r <;> rfl
  unfold Ensures
  rw [hrun]
  obtain ⟨r, c'⟩ := x.run c
  cases r <;> rfl

theorem get_iff {ok : S → S → Prop} :
    Ensures (get : ExceptT ε (StateM S) S) c ok err ↔ ok c c := Iff.rfl

theorem set_iff {c' : S} {ok : PUnit → S → Prop} :
    Ensures (set c' : ExceptT ε (StateM S) PUnit) c ok err ↔ ok ⟨⟩ c' := Iff.rfl

theorem modify_iff {g : S → S} {ok : PUnit → S → Prop} :
    Ensures (modify g : ExceptT ε (StateM S) PUnit) c ok err ↔ ok ⟨⟩ (g c) := Iff.rfl

theorem lift_iff {r : Except ε α} :
    Ensures (liftM r : ExceptT ε (StateM S) α) c ok err ↔
      match r with
      | .ok a => ok a c
      | .error e => err e c := by
  cases r <;> rfl

end Ensures

end Playground
