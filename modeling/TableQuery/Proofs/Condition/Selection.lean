import TableQuery.Proofs.Condition.PatternCache

namespace TableQuery

def select {α : Type} (test : α → Except Fault Bool) : List α → Except Fault (List α)
  | [] => .ok []
  | a :: l => do
    let holds ← test a
    let kept ← select test l
    return if holds then a :: kept else kept

/-- Whether a row passes WHERE, decided for this row alone. -/
def passes [Like.Compiler] {σ : Type} (condition : Option (Expr σ)) (row : Row) :
    Except Fault Bool :=
  match condition with
  | none => .ok true
  | some condition => condition.matches row

section

variable {α β : Type} {test : α → Except Fault Bool}

theorem select_cons_ok {a : α} {l : List α} {holds : Bool} (h : test a = .ok holds) :
    select test (a :: l) = (select test l).map fun kept ↦ if holds then a :: kept else kept := by
  rw [select, h]
  cases select test l <;> rfl

theorem select_cons_error {a : α} {l : List α} {fault : Fault} (h : test a = .error fault) :
    select test (a :: l) = .error fault := by
  rw [select, h]
  rfl

theorem select_true (l : List α) : select (fun _ ↦ .ok true) l = .ok l := by
  induction l with
  | nil => rfl
  | cons a l ih =>
    rw [select, ih]
    rfl

theorem select_eq_ok_iff {l kept : List α} :
    select test l = .ok kept ↔
      (∀ a ∈ l, ∃ holds, test a = .ok holds) ∧
        l.filter (fun a ↦ (test a).toOption.getD false) = kept := by
  induction l generalizing kept with
  | nil => simp [select]
  | cons a l ih =>
    cases h : test a with
    | error fault => simp [select_cons_error h, h]
    | ok holds =>
      rw [select_cons_ok h, map_eq_ok]
      simp only [ih, List.forall_mem_cons, h, List.filter_cons, Except.toOption]
      cases holds <;> simp

theorem decides_select {code : String} (h : ∀ a, FailsWith code (test a)) (l : List α) :
    Decides code (∀ a ∈ l, ∃ holds, test a = .ok holds) (select test l) := by
  induction l with
  | nil => exact .ok (by simp) []
  | cons a l ih =>
    rw [List.forall_mem_cons]
    cases ha : test a with
    | error fault =>
      rw [select_cons_error ha]
      exact .error (by simp) (h a fault ha)
    | ok holds =>
      rw [select_cons_ok ha]
      exact (ih.map _).iff (and_iff_right ⟨holds, rfl⟩).symm

theorem select_map (f : β → α) (l : List β) :
    select test (l.map f) = (select (fun b ↦ test (f b)) l).map (List.map f) := by
  induction l with
  | nil => rfl
  | cons b l ih =>
    have hcons : select test (f b :: l.map f) = do
        let holds ← test (f b)
        let kept ← (select (fun b ↦ test (f b)) l).map (List.map f)
        return if holds then f b :: kept else kept := by
      rw [select, ih]
    rw [List.map_cons, hcons, select]
    cases test (f b) with
    | error fault => rfl
    | ok holds => cases select (fun b ↦ test (f b)) l <;> cases holds <;> rfl

theorem sublist_of_select {l kept : List α} (h : select test l = .ok kept) : kept.Sublist l :=
  (select_eq_ok_iff.mp h).2 ▸ List.filter_sublist

theorem alike_select {test' : β → Except Fault Bool} {R : α → β → Prop}
    (htest : ∀ a b, R a b → test a = test' b) {l : List α} {l' : List β}
    (h : List.Forall₂ R l l') : Alike (List.Forall₂ R) (select test l) (select test' l') := by
  induction h with
  | nil => exact .ok .nil
  | @cons a b l l' hab h ih =>
    refine (Alike.of_eq (htest a b hab)).bind fun holds _ he ↦ ih.bind fun kept kept' hk ↦ .ok ?_
    subst he
    cases holds
    · exact hk
    · exact .cons hab hk

end

namespace RowFilter

variable [Like.Compiler] {σ : Type}

theorem gives_keep (condition : Expr σ) (rows : List Row) :
    Gives (keep condition rows) (select condition.matches rows) := by
  induction rows with
  | nil => exact .pure _
  | cons row rows ih =>
    exact (gives_evaluate row condition).bind fun _ ↦ ih.bind fun _ ↦ .pure _

theorem apply_eq_select (condition : Option (Expr σ)) (rows : List Row) :
    apply condition rows = select (passes condition) rows := by
  cases condition with
  | none => exact (select_true rows).symm
  | some condition =>
    obtain ⟨cache, -, h⟩ := gives_keep condition rows [] PatternCache.sound_nil
    exact congrArg Prod.fst h

end RowFilter

end TableQuery
