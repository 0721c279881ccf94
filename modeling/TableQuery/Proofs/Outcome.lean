import TableQuery.Fault
import Mathlib.Data.List.Forall2

namespace TableQuery

variable {α β γ δ : Type}

/-- Both runs fail with the same fault, or both have results that are related. -/
inductive Alike (R : α → β → Prop) : Except Fault α → Except Fault β → Prop
  | ok {a : α} {b : β} (h : R a b) : Alike R (.ok a) (.ok b)
  | error (fault : Fault) : Alike R (.error fault) (.error fault)

namespace Alike

theorem eq {x y : Except Fault α} (h : Alike Eq x y) : x = y := by
  cases h with
  | ok h => rw [h]
  | error => rfl

theorem of_eq {x y : Except Fault α} (h : x = y) : Alike Eq x y := by
  subst h
  cases x with
  | ok a => exact .ok rfl
  | error fault => exact .error fault

theorem bind {R : α → β → Prop} {S : γ → δ → Prop} {x : Except Fault α} {y : Except Fault β}
    {f : α → Except Fault γ} {g : β → Except Fault δ} (h : Alike R x y)
    (hfg : ∀ a b, R a b → Alike S (f a) (g b)) : Alike S (x >>= f) (y >>= g) := by
  cases h with
  | ok h => exact hfg _ _ h
  | error fault => exact .error fault

end Alike

theorem exists_mem_of_forall₂ {R : α → β → Prop} {l : List α} {l' : List β}
    (h : List.Forall₂ R l l') {b : β} (hb : b ∈ l') : ∃ a ∈ l, R a b := by
  induction h with
  | nil => cases hb
  | @cons a b' l l' hab _ ih =>
    rcases List.mem_cons.mp hb with rfl | hb
    · exact ⟨a, List.mem_cons_self, hab⟩
    · obtain ⟨a', ha, hab⟩ := ih hb
      exact ⟨a', List.mem_cons_of_mem _ ha, hab⟩

theorem forall₂_iff_forall_mem {R S : α → β → Prop} {p : α → Prop} {l : List α} {l' : List β}
    (h : List.Forall₂ R l l') (hS : ∀ a b, R a b → (S a b ↔ p a)) :
    List.Forall₂ S l l' ↔ ∀ a ∈ l, p a := by
  induction h with
  | nil => simp
  | cons hab _ ih => rw [List.forall₂_cons, hS _ _ hab, ih, List.forall_mem_cons]

theorem map_eq_map_of_forall₂ {R : α → β → Prop} {S : α → γ → Prop} {f : β → δ} {g : γ → δ}
    {l : List α} {l₁ : List β} {l₂ : List γ} (h₁ : List.Forall₂ R l l₁)
    (h₂ : List.Forall₂ S l l₂) (hfg : ∀ a b c, R a b → S a c → f b = g c) :
    l₁.map f = l₂.map g := by
  induction h₁ generalizing l₂ with
  | nil =>
    cases h₂
    rfl
  | cons hab _ ih =>
    cases h₂ with
    | cons hac h₂ => rw [List.map_cons, List.map_cons, hfg _ _ _ hab hac, ih h₂]

theorem forall₂_filter_zip {R : α → β → Prop} {S : α → γ → Prop} {p : α → Bool} {l : List α}
    {l₁ : List β} {l₂ : List γ} (h₁ : List.Forall₂ R l l₁)
    (h₂ : List.Forall₂ S (l.filter p) l₂) :
    List.Forall₂ (fun x c ↦ R x.1 x.2 ∧ S x.1 c) ((l.zip l₁).filter (p ·.1)) l₂ := by
  have hfst : ((l.zip l₁).filter (p ·.1)).map Prod.fst = l.filter p := by
    calc ((l.zip l₁).filter (p ·.1)).map Prod.fst
        = ((l.zip l₁).map Prod.fst).filter p := List.filter_map.symm
      _ = l.filter p := by rw [List.map_fst_zip (Nat.le_of_eq h₁.length_eq)]
  rw [← hfst, List.forall₂_map_left_iff] at h₂
  refine (List.forall₂_and_left _ _).mpr ⟨fun x hx ↦ ?_, h₂⟩
  exact List.forall₂_zip h₁ (List.mem_of_mem_filter hx)

section

variable {ε : Type}

theorem ok_bind (a : α) (f : α → Except ε β) : Except.ok a >>= f = f a := rfl

theorem bind_eq_ok {x : Except ε α} {f : α → Except ε β} {b : β} :
    x >>= f = .ok b ↔ ∃ a, x = .ok a ∧ f a = .ok b := by
  cases x with
  | ok a =>
    refine ⟨fun h ↦ ⟨a, rfl, h⟩, ?_⟩
    rintro ⟨a', ha, h⟩
    cases ha
    exact h
  | error err => simp [Bind.bind, Except.bind]

theorem map_eq_ok {x : Except ε α} {f : α → β} {b : β} :
    x.map f = .ok b ↔ ∃ a, x = .ok a ∧ f a = b := by
  cases x <;> simp [Except.map]

theorem map_eq_error {x : Except ε α} {f : α → β} {err : ε} :
    x.map f = .error err ↔ x = .error err := by
  cases x <;> simp [Except.map]

variable {f : α → Except ε β} {l : List α}

theorem mapM_cons_ok {a : α} {b : β} (h : f a = .ok b) (l : List α) :
    (a :: l).mapM f = (l.mapM f).map (b :: ·) := by
  rw [List.mapM_cons, h]
  cases l.mapM f <;> rfl

theorem mapM_cons_error {a : α} {err : ε} (h : f a = .error err) (l : List α) :
    (a :: l).mapM f = .error err := by
  rw [List.mapM_cons, h]
  rfl

theorem mapM_eq_ok_iff {l' : List β} :
    l.mapM f = .ok l' ↔ List.Forall₂ (fun a b ↦ f a = .ok b) l l' := by
  induction l generalizing l' with
  | nil =>
    rw [List.mapM_nil, List.forall₂_nil_left_iff]
    exact ⟨fun h ↦ (Except.ok.inj h).symm, fun h ↦ h ▸ rfl⟩
  | cons a l ih =>
    rw [List.forall₂_cons_left_iff]
    cases ha : f a with
    | ok b =>
      rw [mapM_cons_ok ha, map_eq_ok]
      simp [ih, eq_comm]
    | error err => simp [mapM_cons_error ha]

theorem exists_mapM_eq_ok_iff : (∃ l', l.mapM f = .ok l') ↔ ∀ a ∈ l, ∃ b, f a = .ok b := by
  induction l with
  | nil => simp [pure, Except.pure]
  | cons a l ih =>
    rw [List.forall_mem_cons, ← ih]
    cases ha : f a with
    | ok b => simp [mapM_cons_ok ha, map_eq_ok]
    | error err => simp [mapM_cons_error ha]

theorem length_of_mapM {l' : List β} (h : l.mapM f = .ok l') : l'.length = l.length :=
  (mapM_eq_ok_iff.mp h).length_eq.symm

theorem flatMap_of_mapM {l' : List β} (h : l.mapM f = .ok l') {F : α → List γ} {G : β → List γ}
    (hFG : ∀ a ∈ l, ∀ b, f a = .ok b → G b = F a) : l'.flatMap G = l.flatMap F := by
  have hresults := mapM_eq_ok_iff.mp h
  induction hresults with
  | nil => rfl
  | @cons a b l l' hab hl ih =>
    rw [List.forall_mem_cons] at hFG
    rw [List.flatMap_cons, List.flatMap_cons, hFG.1 b hab, ih (mapM_eq_ok_iff.mpr hl) hFG.2]

theorem mapM_eq_error_iff {err : ε} : l.mapM f = .error err ↔
    ∃ before a after, l = before ++ a :: after ∧ (∀ b ∈ before, ∃ c, f b = .ok c) ∧
      f a = .error err := by
  constructor
  · intro h
    induction l with
    | nil => cases h
    | cons a l ih =>
      cases ha : f a with
      | error err' =>
        rw [mapM_cons_error ha] at h
        exact ⟨[], a, l, rfl, by simp, ha.trans (Except.error.inj h ▸ rfl)⟩
      | ok b =>
        rw [mapM_cons_ok ha, map_eq_error] at h
        obtain ⟨before, a', after, rfl, hb, h'⟩ := ih h
        exact ⟨a :: before, a', after, rfl, List.forall_mem_cons.mpr ⟨⟨b, ha⟩, hb⟩, h'⟩
  · rintro ⟨before, a, after, rfl, hb, ha⟩
    induction before with
    | nil => exact mapM_cons_error ha after
    | cons b before ih =>
      obtain ⟨⟨c, hc⟩, hb⟩ := List.forall_mem_cons.mp hb
      rw [List.cons_append, mapM_cons_ok hc, ih hb]
      rfl

end

def FailsWith (code : String) (x : Except Fault α) : Prop :=
  ∀ fault, x = .error fault → fault.code = code

namespace FailsWith

variable {code : String}

theorem ok (a : α) : FailsWith code (.ok a) := fun _ h ↦ nomatch h

theorem error {fault : Fault} (h : fault.code = code) :
    FailsWith code (.error fault : Except Fault α) := by
  rintro _ ⟨⟩
  exact h

theorem bind {x : Except Fault α} {f : α → Except Fault β} (hx : FailsWith code x)
    (hf : ∀ a, FailsWith code (f a)) : FailsWith code (x >>= f) := by
  cases x with
  | ok a => exact hf a
  | error fault => exact .error (hx fault rfl)

end FailsWith

/-- A stage has a result if a condition is met, and else fails with a code. -/
inductive Decides (code : String) (P : Prop) : Except Fault α → Prop
  | ok (h : P) (a : α) : Decides code P (.ok a)
  | error (h : ¬P) {fault : Fault} (hc : fault.code = code) : Decides code P (.error fault)

namespace Decides

variable {code : String} {P Q : Prop}

theorem iff {x : Except Fault α} (h : Decides code P x) (hPQ : P ↔ Q) : Decides code Q x := by
  cases h with
  | ok h a => exact .ok (hPQ.mp h) a
  | error h hc => exact .error (mt hPQ.mpr h) hc

theorem exists_ok {x : Except Fault α} (h : Decides code P x) (hP : P) : ∃ a, x = .ok a := by
  cases h with
  | ok h a => exact ⟨a, rfl⟩
  | error h hc => exact absurd hP h

theorem of_eq_ok {x : Except Fault α} (h : Decides code P x) {a : α} (hx : x = .ok a) : P := by
  subst hx
  cases h with
  | ok h a => exact h

theorem of_failsWith {x : Except Fault α} (h : FailsWith code x) :
    Decides code (∃ a, x = .ok a) x := by
  cases x with
  | ok a => exact .ok ⟨a, rfl⟩ a
  | error fault => exact .error nofun (h fault rfl)

theorem map {x : Except Fault α} (f : α → β) (h : Decides code P x) :
    Decides code P (x.map f) := by
  cases h with
  | ok h a => exact .ok h (f a)
  | error h hc => exact .error h hc

theorem bind {x : Except Fault α} {f : α → Except Fault β} (hx : Decides code P x)
    (hf : ∀ a, x = .ok a → Decides code Q (f a)) : Decides code (P ∧ Q) (x >>= f) := by
  cases hx with
  | ok h a => exact (hf a rfl).iff (and_iff_right h).symm
  | error h hc => exact .error (fun hPQ ↦ h hPQ.1) hc

theorem mapM {p : α → Prop} {f : α → Except Fault β} {l : List α}
    (h : ∀ a ∈ l, Decides code (p a) (f a)) : Decides code (∀ a ∈ l, p a) (l.mapM f) := by
  induction l with
  | nil => exact .ok (by simp) []
  | cons a l ih =>
    obtain ⟨ha, h⟩ := List.forall_mem_cons.mp h
    rw [List.mapM_cons]
    exact (ha.bind fun b _ ↦ (ih h).map (b :: ·)).iff List.forall_mem_cons.symm

theorem foldlM {p : α → Prop} {f : β → α → Except Fault β} {l : List α}
    (h : ∀ b, ∀ a ∈ l, Decides code (p a) (f b a)) (b : β) :
    Decides code (∀ a ∈ l, p a) (l.foldlM f b) := by
  induction l generalizing b with
  | nil => exact .ok (by simp) b
  | cons a l ih =>
    rw [List.foldlM_cons]
    refine Decides.iff (.bind (h b a List.mem_cons_self) fun b _ ↦ ?_) List.forall_mem_cons.symm
    exact ih (fun b a ha ↦ h b a (List.mem_cons_of_mem _ ha)) b

end Decides

section

variable {ι : Type}

/-- The outcome of stages that check requirements one after another. -/
inductive Settles (met : ι → Prop) (code : ι → String) : List ι → Except Fault α → Prop
  | ok (a : α) : Settles met code [] (.ok a)
  | met {q : ι} {qs : List ι} {x : Except Fault α} (h : met q) (hx : Settles met code qs x) :
      Settles met code (q :: qs) x
  | unmet {q : ι} (qs : List ι) {fault : Fault} (h : ¬met q) (hc : fault.code = code q) :
      Settles met code (q :: qs) (.error fault)

namespace Settles

variable {met : ι → Prop} {code : ι → String} {qs qs' : List ι}

theorem of_decides {q : ι} {x : Except Fault α} (h : Decides (code q) (met q) x) :
    Settles met code [q] x := by
  cases h with
  | ok h a => exact .met h (.ok a)
  | error h hc => exact .unmet [] h hc

theorem bind {x : Except Fault α} {f : α → Except Fault β} (hx : Settles met code qs x)
    (hf : ∀ a, x = .ok a → Settles met code qs' (f a)) :
    Settles met code (qs ++ qs') (x >>= f) := by
  induction hx with
  | ok a => exact hf a rfl
  | met h hx ih => exact .met h (ih hf)
  | unmet qs h hc => exact .unmet _ h hc

theorem exists_ok_iff {x : Except Fault α} (h : Settles met code qs x) :
    (∃ a, x = .ok a) ↔ ∀ q ∈ qs, met q := by
  induction h with
  | ok a => simp
  | met h hx ih => rw [ih, List.forall_mem_cons, and_iff_right h]
  | unmet qs h hc => simp [h]

theorem exists_first_unmet {x : Except Fault α} (h : Settles met code qs x) {fault : Fault}
    (hx : x = .error fault) : ∃ before q after, qs = before ++ q :: after ∧
      (∀ p ∈ before, met p) ∧ ¬met q ∧ fault.code = code q := by
  induction h with
  | ok a => cases hx
  | @met q qs x h _ ih =>
    obtain ⟨before, q', after, rfl, hb, hq, hc⟩ := ih hx
    exact ⟨q :: before, q', after, rfl, List.forall_mem_cons.mpr ⟨h, hb⟩, hq, hc⟩
  | @unmet q qs fault h hc =>
    cases hx
    exact ⟨[], q, qs, rfl, by simp, h, hc⟩

end Settles

end

end TableQuery
