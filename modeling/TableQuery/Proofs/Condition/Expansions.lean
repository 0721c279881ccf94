import TableQuery.Proofs.Condition.Evaluation

namespace TableQuery

namespace Expr

section

variable [Like.Compiler] {σ : Type} {row : Row}

def operand (row : Row) (e : Expr σ) : Except Fault Value := e.value Like.test row .operand

/-- A condition has an outcome on a row, and it holds exactly if a proposition does. -/
def Means (row : Row) (e : Expr σ) (P : Prop) : Prop :=
  ∃ holds : Bool, e.matches row = .ok holds ∧ (holds = true ↔ P)

namespace Means

variable {e e' left right : Expr σ} {P Q : Prop}

theorem iff (h : e.Means row P) (hPQ : P ↔ Q) : e.Means row Q := by
  obtain ⟨holds, he, hP⟩ := h
  exact ⟨holds, he, hP.trans hPQ⟩

theorem of_matches {holds : Bool} (h : e.matches row = .ok holds) :
    e.Means row (e.matches row = .ok true) := ⟨holds, h, by simp [h]⟩

theorem matches_eq_true (h : e.Means row P) : e.matches row = .ok true ↔ P := by
  obtain ⟨holds, he, hP⟩ := h
  rw [← hP, he, Except.ok.injEq]

theorem alike (h : e.Means row P) (h' : e'.Means row P) :
    ∃ holds, e.matches row = .ok holds ∧ e'.matches row = .ok holds := by
  obtain ⟨holds, he, hP⟩ := h
  obtain ⟨holds', he', hP'⟩ := h'
  exact ⟨holds, he, he'.trans (congrArg _ (Bool.eq_iff_iff.mpr (hP'.trans hP.symm)))⟩

theorem and (hl : left.Means row P) (hr : right.Means row Q) :
    (Expr.and left right).Means row (P ∧ Q) := by
  obtain ⟨a, hl, hP⟩ := hl
  obtain ⟨b, hr, hQ⟩ := hr
  refine ⟨a && b, ?_, by rw [Bool.and_eq_true, hP, hQ]⟩
  rw [matches_and, hl, hr]
  cases a <;> rfl

theorem or (hl : left.Means row P) (hr : right.Means row Q) :
    (Expr.or left right).Means row (P ∨ Q) := by
  obtain ⟨a, hl, hP⟩ := hl
  obtain ⟨b, hr, hQ⟩ := hr
  refine ⟨a || b, ?_, by rw [Bool.or_eq_true, hP, hQ]⟩
  rw [matches_or, hl, hr]
  cases a <;> rfl

theorem paren (h : e.Means row P) : (Expr.paren e).Means row P := by
  obtain ⟨holds, he, hP⟩ := h
  exact ⟨holds, (matches_paren e).trans he, hP⟩

end Means

section

variable {e f low high : Expr σ} {v w a b : Value}

theorem matches_compare_of_operands (op : Comparison) (he : e.operand row = .ok v)
    (hf : f.operand row = .ok w) :
    (compare op e f).matches row = op.holds Like.test v w := by
  unfold operand at he hf
  rw [matches_compare, he, hf]
  rfl

theorem means_compare (op : Comparison) (test : Ordering → Bool)
    (hop : ∀ v w, op.test Like.test v w = .ok (test (v.order w))) (he : e.operand row = .ok v)
    (hf : f.operand row = .ok w) :
    (compare op e f).Means row
      (v.isNull = false ∧ w.isNull = false ∧ test (v.order w) = true) := by
  rw [Means, matches_compare_of_operands op he hf]
  unfold Comparison.holds
  rw [hop]
  cases v.isNull with
  | true => exact ⟨false, rfl, by simp⟩
  | false =>
    cases w.isNull with
    | true => exact ⟨false, rfl, by simp⟩
    | false => exact ⟨_, rfl, by simp⟩

theorem means_between (negated : Bool) (he : e.operand row = .ok v)
    (hlow : low.operand row = .ok a) (hhigh : high.operand row = .ok b) :
    (between negated e low high).Means row
      ((v.isNull = false ∧ a.isNull = false ∧ b.isNull = false) ∧
        (v.order a ≠ .lt ∧ v.order b ≠ .gt ↔ negated = false)) := by
  have hmatches : (between negated e low high).matches row =
      .ok (!(v.isNull || a.isNull || b.isNull) &&
        ((v.order a != .lt && v.order b != .gt) != negated)) := by
    unfold operand at he hlow hhigh
    simp only [Expr.matches, holds, value, he, hlow, hhigh, ok_bind]
    cases v.isNull || a.isNull || b.isNull <;> rfl
  refine ⟨_, hmatches, ?_⟩
  cases negated <;> simp [and_assoc, or_iff_not_imp_left]

theorem exists_anyEqual_eq_ok {items : List (Expr σ)} (he : e.operand row = .ok v)
    (hv : v.isNull = false) (hitems : ∀ item ∈ items, ∃ w, item.operand row = .ok w) :
    ∃ found, anyEqual Like.test row v items = .ok found ∧
      (found = true ↔ ∃ item ∈ items, (compare .eq e item).matches row = .ok true) := by
  induction items with
  | nil => exact ⟨false, by rw [anyEqual]; rfl, by simp⟩
  | cons item items ih =>
    obtain ⟨⟨w, hw⟩, hitems⟩ := List.forall_mem_cons.mp hitems
    have heq : (compare .eq e item).matches row = .ok (!w.isNull && v.order w == .eq) := by
      rw [matches_compare_of_operands .eq he hw, Comparison.holds, hv]
      cases w.isNull <;> rfl
    unfold operand at hw
    simp only [anyEqual, hw, ok_bind, List.exists_mem_cons_iff, heq]
    cases !w.isNull && v.order w == .eq with
    | true => exact ⟨true, rfl, by simp⟩
    | false => simpa using ih hitems

theorem means_among (negated : Bool) {items : List (Expr σ)} (he : e.operand row = .ok v)
    (hitems : ∀ item ∈ items, ∃ w, item.operand row = .ok w) :
    (among negated e items).Means row (v.isNull = false ∧
      ((∃ item ∈ items, (compare .eq e item).matches row = .ok true) ↔ negated = false)) := by
  have hmatches : (among negated e items).matches row =
      if v.isNull then .ok false else (anyEqual Like.test row v items).map (· != negated) := by
    unfold operand at he
    simp only [Expr.matches, holds, value, he, ok_bind]
    cases v.isNull with
    | true => rfl
    | false => cases anyEqual Like.test row v items <;> rfl
  rw [Means, hmatches]
  cases hv : v.isNull with
  | true => exact ⟨false, rfl, by simp⟩
  | false =>
    obtain ⟨found, hfound, hiff⟩ := exists_anyEqual_eq_ok he hv hitems
    rw [hfound, ← hiff]
    exact ⟨found != negated, rfl, by cases found <;> cases negated <;> simp⟩

end

/-- A disjunction of the given conditions in order, bracketed and parenthesised in any way. The
empty one is false. -/
inductive IsDisjunction : List (Expr σ) → Expr σ → Prop
  | nil : IsDisjunction [] (literal (.boolean false))
  | single (e : Expr σ) : IsDisjunction [e] e
  | or {es es' : List (Expr σ)} {d d' : Expr σ} :
      IsDisjunction es d → IsDisjunction es' d' → IsDisjunction (es ++ es') (or d d')
  | paren {es : List (Expr σ)} {d : Expr σ} : IsDisjunction es d → IsDisjunction es (paren d)

theorem IsDisjunction.means {es : List (Expr σ)} {d : Expr σ} (h : IsDisjunction es d)
    (hes : ∀ e ∈ es, ∃ holds, e.matches row = .ok holds) :
    d.Means row (∃ e ∈ es, e.matches row = .ok true) := by
  induction h with
  | nil =>
    refine ⟨false, ?_, by simp⟩
    simp only [Expr.matches, holds, value]
    rfl
  | single e =>
    obtain ⟨holds, he⟩ := hes e (by simp)
    exact (Means.of_matches he).iff (by simp)
  | or _ _ ih ih' =>
    rw [List.forall_mem_append] at hes
    exact ((ih hes.1).or (ih' hes.2)).iff (by simp [or_and_right, exists_or])
  | paren _ ih => exact (ih hes).paren

section

variable {e low high : Expr σ} {items : List (Expr σ)} {v a b : Value}

theorem between_alike (he : e.operand row = .ok v) (hlow : low.operand row = .ok a)
    (hhigh : high.operand row = .ok b) :
    ∃ holds, (between false e low high).matches row = .ok holds ∧
      (and (compare .gtEq e low) (compare .ltEq e high)).matches row = .ok holds := by
  have hge := means_compare .gtEq (· != .lt) (fun _ _ ↦ rfl) he hlow
  have hle := means_compare .ltEq (· != .gt) (fun _ _ ↦ rfl) he hhigh
  refine (means_between false he hlow hhigh).alike ((hge.and hle).iff ?_)
  simp only [bne_iff_ne, iff_true]
  tauto

theorem means_notBetween (he : e.operand row = .ok v) (hlow : low.operand row = .ok a)
    (hhigh : high.operand row = .ok b) :
    (between true e low high).Means row
      ((v.isNull = false ∧ a.isNull = false ∧ b.isNull = false) ∧
        (or (compare .lt e low) (compare .gt e high)).matches row = .ok true) := by
  have hlt := means_compare .lt (· == .lt) (fun _ _ ↦ rfl) he hlow
  have hgt := means_compare .gt (· == .gt) (fun _ _ ↦ rfl) he hhigh
  refine (means_between true he hlow hhigh).iff (and_congr_right fun ⟨hv, ha, hb⟩ ↦ ?_)
  rw [(hlt.or hgt).matches_eq_true]
  simp [hv, ha, hb, or_iff_not_imp_left]

theorem among_alike (he : e.operand row = .ok v)
    (hitems : ∀ item ∈ items, ∃ w, item.operand row = .ok w) {items' : List (Expr σ)}
    (hperm : items'.Perm items) {d : Expr σ} (hd : IsDisjunction (items'.map (compare .eq e)) d) :
    ∃ holds, (among false e items).matches row = .ok holds ∧ d.matches row = .ok holds := by
  have hequality : ∀ item ∈ items', ∃ w, (compare .eq e item).Means row
      (v.isNull = false ∧ w.isNull = false ∧ (v.order w == .eq) = true) := by
    intro item hitem
    obtain ⟨w, hw⟩ := hitems item (hperm.mem_iff.mp hitem)
    exact ⟨w, means_compare .eq (· == .eq) (fun _ _ ↦ rfl) he hw⟩
  have hor : d.Means row _ := hd.means (List.forall_mem_map.mpr fun item hitem ↦
    (hequality item hitem).elim fun w h ↦ h.imp fun _ ↦ And.left)
  refine (means_among false he hitems).alike (hor.iff ⟨?_, ?_⟩)
  · rintro ⟨f, hf, h⟩
    obtain ⟨item, hitem, rfl⟩ := List.mem_map.mp hf
    obtain ⟨w, hw⟩ := hequality item hitem
    exact ⟨(hw.matches_eq_true.mp h).1, iff_of_true ⟨item, hperm.mem_iff.mp hitem, h⟩ rfl⟩
  · rintro ⟨-, h⟩
    obtain ⟨item, hitem, h⟩ := h.mpr rfl
    exact ⟨_, List.mem_map_of_mem (hperm.mem_iff.mpr hitem), h⟩

theorem means_notAmong (he : e.operand row = .ok v)
    (hitems : ∀ item ∈ items, ∃ w, item.operand row = .ok w) :
    (among true e items).Means row
      (v.isNull = false ∧ ∀ item ∈ items, (compare .eq e item).matches row ≠ .ok true) := by
  refine (means_among true he hitems).iff (and_congr_right fun _ ↦ ?_)
  simp only [Bool.true_eq_false, iff_false, not_exists, not_and, ne_eq]

/-- On a row where the operands have values, BETWEEN evaluates like two comparisons joined by AND,
and IN like the equalities with its items joined by OR, in any order of the items. NOT BETWEEN holds
exactly if no operand is NULL and one of the strict comparisons holds, and NOT IN if the operand is
not NULL and equal to no item. -/
theorem matches_expansions (he : e.operand row = .ok v) (hlow : low.operand row = .ok a)
    (hhigh : high.operand row = .ok b)
    (hitems : ∀ item ∈ items, ∃ w, item.operand row = .ok w) :
    (∃ holds, (between false e low high).matches row = .ok holds ∧
      (and (compare .gtEq e low) (compare .ltEq e high)).matches row = .ok holds) ∧
    (between true e low high).Means row
      ((v.isNull = false ∧ a.isNull = false ∧ b.isNull = false) ∧
        (or (compare .lt e low) (compare .gt e high)).matches row = .ok true) ∧
    (∀ (items' : List (Expr σ)) (d : Expr σ), items'.Perm items →
      IsDisjunction (items'.map (compare .eq e)) d →
        ∃ holds, (among false e items).matches row = .ok holds ∧ d.matches row = .ok holds) ∧
    (among true e items).Means row
      (v.isNull = false ∧ ∀ item ∈ items, (compare .eq e item).matches row ≠ .ok true) :=
  ⟨between_alike he hlow hhigh, means_notBetween he hlow hhigh,
    fun _ _ hperm hd ↦ among_alike he hitems hperm hd, means_notAmong he hitems⟩

end

end

section

attribute [local instance] Like.Compiler.unlimited

private def orphan : Row :=
  .ofList [("pid", .integer 22), ("name", .text "cron"), ("uid", .null)]

private def isCron : Expr Unit := .paren (.compare .eq (.column "name") (.literal (.text "cron")))

theorem matches_expansions_orphan :
    (between false (column "PID") (literal (.text "9")) isCron).matches orphan = .ok true ∧
    ¬(or (compare .lt (column "PID") (literal (.text "9")))
      (compare .gt (column "PID") isCron)).matches orphan = .ok true ∧
    (among false (column "PID") [isCron, column "uid"]).matches orphan =
      (paren (or (compare .eq (column "PID") (column "uid"))
        (compare .eq (column "PID") isCron))).matches orphan ∧
    (among true (column "PID") [isCron, column "uid"]).matches orphan = .ok true := by
  have hpid : (column "PID" : Expr Unit).operand orphan = .ok (.integer 22) := by decide +kernel
  have hnine : (literal (.text "9") : Expr Unit).operand orphan = .ok (.text "9") := rfl
  have hcron : isCron.operand orphan = .ok (.boolean true) := by decide +kernel
  have huid : (column "uid" : Expr Unit).operand orphan = .ok .null := by decide +kernel
  obtain ⟨⟨holds, hbetween, hand⟩, hnot, hamong, hnotAmong⟩ :=
    matches_expansions hpid hnine hcron
      (List.forall_mem_cons.mpr ⟨⟨_, hcron⟩, List.forall_mem_singleton.mpr ⟨_, huid⟩⟩)
  have hinside : (and (compare .gtEq (column "PID") (literal (.text "9")))
      (compare .ltEq (column "PID") isCron)).matches orphan = .ok true := by decide +kernel
  refine ⟨hbetween.trans (hand.symm.trans hinside), fun hor ↦ ?_, ?_, ?_⟩
  · have houtside := hnot.matches_eq_true.mpr ⟨⟨rfl, rfl, rfl⟩, hor⟩
    revert houtside
    decide +kernel
  · obtain ⟨holds, hin, hor⟩ := hamong [column "uid", isCron] _ (.swap _ _ _)
      (.paren (.or (.single _) (.single _)))
    exact hin.trans hor.symm
  · refine hnotAmong.matches_eq_true.mpr ⟨rfl, ?_⟩
    decide +kernel

end

end Expr

end TableQuery
