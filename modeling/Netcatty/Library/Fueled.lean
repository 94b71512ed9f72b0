import Mathlib.Tactic.Common

/-! # Programs with a state, errors and fuel

A program of `Fueled σ ε α` reads and changes a state, ends with a value or with an error, and keeps
its state in both; where its fuel is spent it has no result at all.

`Ends P m Q X` says that from a state with `P` the program comes to an end: with a value and `Q`, or
with an error and `X`.  `Extends m m'` says that more fuel changes no result.  `succeeds` forgets
which error a program ended with; it is compositional (`succeeds_bind`), so two programs whose parts
fail alike and otherwise agree do so as a whole (`Alike`). -/

namespace Netcatty

def Fueled (σ ε α : Type) : Type := σ → Option (Except ε α × σ)

namespace Fueled

variable {σ ε α β : Type}

/-- What follows the result of a first part. -/
def andThen (f : α → Fueled σ ε β) : Option (Except ε α × σ) → Option (Except ε β × σ)
  | none => none
  | some (.ok a, s) => f a s
  | some (.error error, s) => some (.error error, s)

instance : Monad (Fueled σ ε) where
  pure a := fun s => some (.ok a, s)
  bind m f := fun s => andThen f (m s)

/-- The fuel is spent. -/
def exhausted : Fueled σ ε α := fun _ => none

def ofExcept (result : Except ε α) : Fueled σ ε α := fun s => some (result, s)

/-- A step that reads the state and changes it. -/
def step (f : σ → Except ε α × σ) : Fueled σ ε α := fun s => some (f s)

def update (f : σ → σ) : Fueled σ ε Unit := fun s => some (.ok (), f s)

/-- A program, and what is done to the state where it ends, with an error or without. -/
def finallyUpdate (m : Fueled σ ε α) (f : σ → σ) : Fueled σ ε α := fun s =>
  (m s).map fun (result, s) => (result, f s)

theorem bind_apply (m : Fueled σ ε α) (f : α → Fueled σ ε β) (s : σ) :
    (m >>= f) s = andThen f (m s) := rfl

/-! ### Where a program ends -/

/-- From a state with `P` the program ends, with a value and `Q` or with an error and `X`. -/
def Ends (P : σ → Prop) (m : Fueled σ ε α) (Q : α → σ → Prop) (X : σ → Prop) : Prop :=
  ∀ s, P s → ∃ result s', m s = some (result, s') ∧
    match result with
    | .ok a => Q a s'
    | .error _ => X s'

section Ends

variable {P P' : σ → Prop} {Q Q' : α → σ → Prop} {X X' : σ → Prop} {m : Fueled σ ε α}

theorem Ends.pure {a : α} (h : ∀ s, P s → Q a s) : Ends P (Pure.pure a : Fueled σ ε α) Q X :=
  fun s hs => ⟨.ok a, s, rfl, h s hs⟩

theorem Ends.ofExcept {result : Except ε α} (hok : ∀ a, result = .ok a → ∀ s, P s → Q a s)
    (herror : ∀ s, P s → X s) : Ends P (ofExcept result) Q X := fun s hs => by
  cases result with
  | ok a => exact ⟨.ok a, s, rfl, hok a rfl s hs⟩
  | error error => exact ⟨.error error, s, rfl, herror s hs⟩

theorem Ends.step {f : σ → Except ε α × σ}
    (h : ∀ s, P s → match f s with
      | (.ok a, s') => Q a s'
      | (.error _, s') => X s') : Ends P (step f) Q X := fun s hs => by
  have hs' := h s hs
  cases hf : f s with
  | mk result s' =>
      rw [hf] at hs'
      refine ⟨result, s', congrArg some hf, ?_⟩
      cases result with
      | ok a => exact hs'
      | error error => exact hs'

theorem Ends.update {f : σ → σ} {Q : Unit → σ → Prop} (h : ∀ s, P s → Q () (f s)) :
    Ends P (update f : Fueled σ ε Unit) Q X := fun s hs => ⟨.ok (), f s, rfl, h s hs⟩

theorem Ends.bind {f : α → Fueled σ ε β} {R : α → σ → Prop} {Q : β → σ → Prop}
    (hm : Ends P m R X) (hf : ∀ a, Ends (R a) (f a) Q X) : Ends P (m >>= f) Q X := by
  intro s hs
  obtain ⟨result, s', hrun, hresult⟩ := hm s hs
  rw [bind_apply, hrun]
  cases result with
  | ok a => exact hf a s' hresult
  | error error => exact ⟨.error error, s', rfl, hresult⟩

theorem Ends.weaken (h : Ends P m Q X) (hP : ∀ s, P' s → P s) (hQ : ∀ a s, Q a s → Q' a s)
    (hX : ∀ s, X s → X' s) : Ends P' m Q' X' := by
  intro s hs
  obtain ⟨result, s', hrun, hresult⟩ := h s (hP s hs)
  refine ⟨result, s', hrun, ?_⟩
  cases result with
  | ok a => exact hQ a s' hresult
  | error error => exact hX s' hresult

theorem Ends.pre (h : Ends P m Q X) (hP : ∀ s, P' s → P s) : Ends P' m Q X :=
  h.weaken hP (fun _ _ h => h) fun _ h => h

theorem Ends.post (h : Ends P m Q X) (hQ : ∀ a s, Q a s → Q' a s) : Ends P m Q' X :=
  h.weaken (fun _ h => h) hQ fun _ h => h

/-- A state at a time. -/
theorem Ends.each (h : ∀ s, P s → Ends (· = s) m Q X) : Ends P m Q X := fun s hs => h s hs s rfl

theorem Ends.finallyUpdate {f : σ → σ} (h : Ends P m (fun a s => Q a (f s)) fun s => X (f s)) :
    Ends P (m.finallyUpdate f) Q X := by
  intro s hs
  obtain ⟨result, s', hrun, hresult⟩ := h s hs
  refine ⟨result, f s', by rw [Fueled.finallyUpdate, hrun]; rfl, ?_⟩
  cases result with
  | ok a => exact hresult
  | error error => exact hresult

/-- A map over a list, with an invariant that knows what it has gone through. -/
theorem Ends.mapM' {γ : Type} {f : γ → Fueled σ ε β} {I : List γ → List β → σ → Prop} {l : List γ}
    (h : ∀ done results a rest, l = done ++ a :: rest →
      Ends (I done results) (f a) (fun b => I (done ++ [a]) (results ++ [b])) X) :
    Ends (I [] []) (l.mapM' f) (fun results => I l results) X := by
  suffices haux : ∀ rest done results, l = done ++ rest →
      Ends (I done results) (rest.mapM' f) (fun more => I l (results ++ more)) X from
    haux l [] [] rfl
  intro rest
  induction rest with
  | nil =>
      intro done results hl
      refine Ends.pure fun s hs => ?_
      rwa [hl, List.append_nil, List.append_nil]
  | cons a rest ih =>
      intro done results hl
      refine Ends.bind (h done results a rest hl) fun b => ?_
      have hl' : l = done ++ [a] ++ rest := by rw [hl, List.append_assoc, List.singleton_append]
      refine Ends.bind (ih (done ++ [a]) (results ++ [b]) hl') fun more => Ends.pure fun s hs => ?_
      rwa [List.append_assoc, List.singleton_append] at hs

/-- A loop over a list, with an invariant that knows what it has gone through. -/
theorem Ends.forM {γ : Type} {f : γ → Fueled σ ε PUnit} {I : List γ → σ → Prop} {l : List γ}
    (h : ∀ done a rest, l = done ++ a :: rest →
      Ends (I done) (f a) (fun _ => I (done ++ [a])) X) :
    Ends (I []) (l.forM f) (fun _ => I l) X := by
  suffices haux : ∀ rest done, l = done ++ rest → Ends (I done) (rest.forM f) (fun _ => I l) X from
    haux l [] rfl
  intro rest
  induction rest with
  | nil =>
      intro done hl
      refine Ends.pure fun s hs => ?_
      rwa [hl, List.append_nil]
  | cons a rest ih =>
      intro done hl
      change Ends (I done) (f a >>= fun _ => rest.forM f) (fun _ => I l) X
      refine Ends.bind (h done a rest hl) fun _ => ih (done ++ [a]) ?_
      rw [hl, List.append_assoc, List.singleton_append]

end Ends

/-! ### More fuel -/

/-- Where the first program has a result, the second has it as well. -/
def Extends (m m' : Fueled σ ε α) : Prop := ∀ s result, m s = some result → m' s = some result

theorem Extends.refl (m : Fueled σ ε α) : Extends m m := fun _ _ h => h

theorem Extends.trans {m₁ m₂ m₃ : Fueled σ ε α} (h : Extends m₁ m₂) (h' : Extends m₂ m₃) :
    Extends m₁ m₃ := fun s result hrun => h' s result (h s result hrun)

theorem exhausted_extends (m : Fueled σ ε α) : Extends exhausted m := fun _ _ h => nomatch h

theorem Extends.bind {m m' : Fueled σ ε α} {f f' : α → Fueled σ ε β} (hm : Extends m m')
    (hf : ∀ a, Extends (f a) (f' a)) : Extends (m >>= f) (m' >>= f') := by
  intro s result h
  rw [bind_apply] at h ⊢
  cases hrun : m s with
  | none =>
      rw [hrun] at h
      nomatch h
  | some first =>
      rw [hm s first hrun]
      rw [hrun] at h
      obtain ⟨answer, s'⟩ := first
      cases answer with
      | ok a => exact hf a s' result h
      | error error => exact h

theorem Extends.forM {γ : Type} {f f' : γ → Fueled σ ε PUnit} (h : ∀ a, Extends (f a) (f' a))
    (l : List γ) : Extends (l.forM f) (l.forM f') := by
  induction l with
  | nil => exact Extends.refl _
  | cons a l ih => exact Extends.bind (h a) fun _ => ih

theorem Extends.finallyUpdate {m m' : Fueled σ ε α} (h : Extends m m') (f : σ → σ) :
    Extends (m.finallyUpdate f) (m'.finallyUpdate f) := by
  intro s result hrun
  obtain ⟨first, hfirst, rfl⟩ := Option.map_eq_some_iff.mp hrun
  rw [Fueled.finallyUpdate, h s first hfirst]
  rfl

/-! ### Results without their errors -/

/-- The value and the state of a program that succeeds. -/
def success : Option (Except ε α × σ) → Option (α × σ)
  | some (.ok a, s) => some (a, s)
  | _ => none

def succeeds (m : Fueled σ ε α) (s : σ) : Option (α × σ) := success (m s)

theorem succeeds_bind (m : Fueled σ ε α) (f : α → Fueled σ ε β) (s : σ) :
    succeeds (m >>= f) s = (succeeds m s).bind fun (a, s) => succeeds (f a) s := by
  rw [succeeds, succeeds, bind_apply]
  match m s with
  | none => rfl
  | some (.ok a, s') => rfl
  | some (.error error, s') => rfl

/-- Two programs that succeed from the same states, with the same results. -/
def Alike {ε' : Type} (m : Fueled σ ε α) (m' : Fueled σ ε' α) : Prop := succeeds m = succeeds m'

theorem Alike.bind {m m' : Fueled σ ε α} {f f' : α → Fueled σ ε β} (hm : Alike m m')
    (hf : ∀ a, Alike (f a) (f' a)) : Alike (m >>= f) (m' >>= f') := by
  refine funext fun s => ?_
  rw [succeeds_bind, succeeds_bind, hm]
  cases succeeds m' s with
  | none => rfl
  | some first => exact congrFun (hf first.1) first.2

theorem Alike.refl (m : Fueled σ ε α) : Alike m m := rfl

theorem Alike.forM {γ : Type} {f f' : γ → Fueled σ ε PUnit} (h : ∀ a, Alike (f a) (f' a))
    (l : List γ) : Alike (l.forM f) (l.forM f') := by
  induction l with
  | nil => rfl
  | cons a l ih => exact Alike.bind (h a) fun _ => ih

theorem Alike.finallyUpdate {m m' : Fueled σ ε α} (h : Alike m m') (f : σ → σ) :
    Alike (m.finallyUpdate f) (m'.finallyUpdate f) := by
  refine funext fun s => ?_
  have hs : ∀ m : Fueled σ ε α, succeeds (m.finallyUpdate f) s =
      (succeeds m s).map fun (a, s) => (a, f s) := by
    intro m
    rw [succeeds, succeeds, Fueled.finallyUpdate]
    match m s with
    | none => rfl
    | some (.ok a, s') => rfl
    | some (.error error, s') => rfl
  rw [hs, hs, h]

/-! ### What is kept -/

/-- Where the program succeeds it keeps an invariant of the state. -/
def Keeps (I : σ → Prop) (m : Fueled σ ε α) : Prop :=
  ∀ s, I s → ∀ a s', succeeds m s = some (a, s') → I s'

section Keeps

variable {I : σ → Prop} {m : Fueled σ ε α}

theorem Keeps.bind {f : α → Fueled σ ε β} (hm : Keeps I m) (hf : ∀ a, Keeps I (f a)) :
    Keeps I (m >>= f) := by
  intro s hs b s' h
  rw [succeeds_bind] at h
  obtain ⟨⟨a, t⟩, ha, hb⟩ := Option.bind_eq_some_iff.mp h
  exact hf a t (hm s hs a t ha) b s' hb

theorem Keeps.of_ends {X : σ → Prop} (h : Ends I m (fun _ => I) X) : Keeps I m := by
  intro s hs a s' hrun
  obtain ⟨result, t, hm, hresult⟩ := h s hs
  rw [succeeds, hm] at hrun
  cases result with
  | ok b => exact (Prod.mk.inj (Option.some.inj hrun)).2 ▸ hresult
  | error error => nomatch hrun

theorem Keeps.pure (a : α) : Keeps I (Pure.pure a : Fueled σ ε α) := fun _ hs _ _ h =>
  (Prod.mk.inj (Option.some.inj h)).2 ▸ hs

theorem Keeps.ofExcept (result : Except ε α) : Keeps I (ofExcept result : Fueled σ ε α) := by
  intro s hs a s' h
  cases result with
  | ok b => exact (Prod.mk.inj (Option.some.inj h)).2 ▸ hs
  | error error => nomatch h

theorem Keeps.step {f : σ → Except ε α × σ} (h : ∀ s, I s → I (f s).2) :
    Keeps I (step f : Fueled σ ε α) := by
  intro s hs a s' hrun
  have hend := h s hs
  rw [succeeds, Fueled.step] at hrun
  rcases hf : f s with ⟨result, t⟩
  rw [hf] at hend hrun
  cases result with
  | ok b => exact (Prod.mk.inj (Option.some.inj hrun)).2 ▸ hend
  | error error => nomatch hrun

theorem Keeps.update {f : σ → σ} (h : ∀ s, I s → I (f s)) :
    Keeps I (update f : Fueled σ ε Unit) := fun s hs _ _ hrun =>
  (Prod.mk.inj (Option.some.inj hrun)).2 ▸ h s hs

theorem Keeps.mapM' {γ : Type} {f : γ → Fueled σ ε β} (h : ∀ a, Keeps I (f a)) (l : List γ) :
    Keeps I (l.mapM' f) := by
  induction l with
  | nil => exact Keeps.pure _
  | cons a l ih => exact (h a).bind fun b => ih.bind fun bs => Keeps.pure _

theorem Keeps.forM {γ : Type} {f : γ → Fueled σ ε PUnit} (h : ∀ a, Keeps I (f a)) (l : List γ) :
    Keeps I (l.forM f) := by
  induction l with
  | nil => exact Keeps.pure _
  | cons a l ih => exact (h a).bind fun _ => ih

theorem Keeps.finallyUpdate {f : σ → σ} (hm : Keeps I m) (hf : ∀ s, I s → I (f s)) :
    Keeps I (m.finallyUpdate f) := by
  intro s hs a s' h
  rw [succeeds, Fueled.finallyUpdate] at h
  cases hrun : m s with
  | none =>
      rw [hrun] at h
      nomatch h
  | some outcome =>
      obtain ⟨result, t⟩ := outcome
      rw [hrun] at h
      cases result with
      | error error => nomatch h
      | ok b =>
          obtain ⟨rfl, rfl⟩ := Prod.mk.inj (Option.some.inj h)
          exact hf t (hm s hs b t (by rw [succeeds, hrun]; rfl))

theorem exhausted_keeps : Keeps I (exhausted : Fueled σ ε α) := fun _ _ _ _ h => nomatch h

end Keeps

/-! ### Steps that may be taken in any order -/

end Fueled

end Netcatty
