import TableQuery.Log.Record
import TableQuery.Proofs.Json.RoundTrip
import TableQuery.Proofs.Text.ByteOrder

namespace TableQuery

namespace Json

theorem renderMembers_cons (member : String × Json) (members : List (String × Json)) :
    renderMembers (member :: members) = renderText member.1 ++ ':' :: member.2.render ++
      members.flatMap fun (key, value) ↦ ',' :: renderText key ++ ':' :: value.render := by
  induction members generalizing member with
  | nil => simp [renderMembers]
  | cons next members ih =>
    rw [renderMembers_cons_cons, ih, List.flatMap_cons]
    simp

theorem toList_compact (j : Json) : j.compact.toList = j.render := String.toList_ofList

end Json

namespace LogRecord

open Json (ControlFree controlFree_append)
open Text (bytes)

variable {r : LogRecord}

theorem sortedFields_perm (r : LogRecord) : r.sortedFields.Perm r.fields :=
  List.mergeSort_perm _ _

theorem sortedFields_strict (h : (Entries.names r.fields).Nodup) :
    r.sortedFields.Pairwise fun a b ↦ bytes a.1 < bytes b.1 := by
  have hsorted : r.sortedFields.Pairwise fun a b ↦ decide (a.1 ≤ b.1) = true := by
    refine List.pairwise_mergeSort ?_ ?_ r.fields
    · intro a b c hab hbc
      exact decide_eq_true (le_trans (of_decide_eq_true hab) (of_decide_eq_true hbc))
    · intro a b
      rcases le_total a.1 b.1 with hab | hba
      · simp [hab]
      · simp [hba]
  have hdistinct : r.sortedFields.Pairwise fun a b ↦ a.1 ≠ b.1 :=
    List.pairwise_map.mp (((sortedFields_perm r).map Prod.fst).nodup_iff.mpr h)
  refine (hsorted.and hdistinct).imp ?_
  rintro a b ⟨hle, hne⟩
  exact Text.lt_iff_bytes_lt.mp (lt_of_le_of_ne (of_decide_eq_true hle) hne)

theorem eq_of_perm_of_strict {xs ys : List (String × String)} (hperm : xs.Perm ys)
    (hxs : xs.Pairwise fun a b ↦ bytes a.1 < bytes b.1)
    (hys : ys.Pairwise fun a b ↦ bytes a.1 < bytes b.1) : xs = ys := by
  refine List.Perm.eq_of_pairwise ?_ hxs hys hperm
  intro a b _ _ hab hba
  exact absurd hba (List.lt_asymm hab)

theorem sortedFields_congr {s : LogRecord} (hperm : s.fields.Perm r.fields)
    (h : (Entries.names r.fields).Nodup) : s.sortedFields = r.sortedFields := by
  have hs : (Entries.names s.fields).Nodup := (hperm.map Prod.fst).nodup_iff.mpr h
  have hsorted : s.sortedFields.Perm r.sortedFields :=
    (sortedFields_perm s).trans (hperm.trans (sortedFields_perm r).symm)
  exact eq_of_perm_of_strict hsorted (sortedFields_strict hs) (sortedFields_strict h)

def toJson (r : LogRecord) : Json :=
  .object (("event", .text r.event) :: ("severity", .text r.severity.name) ::
    r.sortedFields.map fun (key, value) ↦ (key, .text value))

theorem render_toJson (r : LogRecord) : r.toJson.render =
    "\x7b\"event\":".toList ++ Json.renderText r.event ++ ",\"severity\":\"".toList ++
      r.severity.name.toList ++ ['"'] ++
      r.sortedFields.flatMap (fun (key, value) ↦
        ',' :: Json.renderText key ++ ':' :: Json.renderText value) ++ ['\x7d'] := by
  have hseverity : Json.renderText r.severity.name = '"' :: r.severity.name.toList ++ ['"'] := by
    cases r.severity <;> rfl
  have hevent : Json.renderText "event" = "\"event\"".toList := rfl
  have hname : Json.renderText "severity" = "\"severity\"".toList := rfl
  have hfields : (r.sortedFields.map fun (key, value) ↦ (key, Json.text value)).flatMap
        (fun (key, value) ↦ ',' :: Json.renderText key ++ ':' :: value.render) =
      r.sortedFields.flatMap fun (key, value) ↦
        ',' :: Json.renderText key ++ ':' :: Json.renderText value := by
    rw [List.flatMap_map]
    simp only [Json.render]
  rw [toJson, Json.render, Json.renderMembers_cons, List.flatMap_cons, hfields]
  simp [Json.render, hevent, hname, hseverity]

/-- The parts that a line is put together from are those of the printed object. -/
theorem line_eq (r : LogRecord) : r.line = r.toJson.compact ++ "\n" := by
  have hfields : (String.join (r.sortedFields.map fieldText)).toList =
      r.sortedFields.flatMap fun (key, value) ↦
        ',' :: Json.renderText key ++ ':' :: Json.renderText value := by
    rw [String.toList_join, List.flatMap_map]
    simp [fieldText, Json.toList_compact, Json.render]
  rw [← String.toList_inj, line]
  simp [Json.toList_compact, Json.render, hfields, render_toJson]

theorem controlFree_render_toJson (r : LogRecord) : ControlFree r.toJson.render := by
  have hname : ControlFree r.severity.name.toList := by
    cases r.severity <;> decide
  have hfield : ∀ field : String × String,
      ControlFree (',' :: Json.renderText field.1 ++ ':' :: Json.renderText field.2) := by
    intro (key, value)
    have hcomma : ControlFree [','] := by decide
    have hcolon : ControlFree [':'] := by decide
    exact controlFree_append.mpr
      ⟨controlFree_append.mpr ⟨hcomma, Json.controlFree_renderText key⟩,
        controlFree_append.mpr ⟨hcolon, Json.controlFree_renderText value⟩⟩
  rw [render_toJson]
  simp only [controlFree_append]
  exact ⟨⟨⟨⟨⟨⟨by decide, Json.controlFree_renderText r.event⟩, by decide⟩, hname⟩, by decide⟩,
    Json.controlFree_flatMap hfield _⟩, by decide⟩

theorem exact_toJson (h : ("event" :: "severity" :: Entries.names r.fields).Nodup) {n : Nat} :
    Json.Exact (n + 1) r.toJson := by
  refine .object ?_ ?_
  · have hperm : (Entries.names r.sortedFields).Perm (Entries.names r.fields) :=
      (sortedFields_perm r).map Prod.fst
    have hall : ("event" :: "severity" :: Entries.names r.sortedFields).Nodup :=
      ((hperm.cons _).cons _).nodup_iff.mpr h
    rw [← Entries.names_map_value Json.text] at hall
    exact hall
  · intro member hm
    obtain rfl | rfl | ⟨field, -, rfl⟩ : member = ("event", .text r.event) ∨
        member = ("severity", .text r.severity.name) ∨
          ∃ field ∈ r.sortedFields, (field.1, Json.text field.2) = member := by
      simpa using hm
    · exact .text r.event
    · exact .text r.severity.name
    · exact .text field.2

/-- A record whose fields have names of their own is written as one line without any control
character before its end. The line is read as the event, the severity and the fields in the order of
their bytes, and it is the same for any order of the fields. -/
theorem line_readable (h : ("event" :: "severity" :: Entries.names r.fields).Nodup) :
    (∃ (text : String) (sorted : List (String × String)), r.line = text ++ "\n" ∧
      ControlFree text.toList ∧ sorted.Perm r.fields ∧
      (sorted.Pairwise fun a b ↦ bytes a.1 < bytes b.1) ∧
      Json.parse? text = some (.object (("event", .text r.event) ::
        ("severity", .text r.severity.name) :: sorted.map fun (key, value) ↦ (key, .text value)))) ∧
    ∀ fields, fields.Perm r.fields → { r with fields }.line = r.line := by
  have hnodup : (Entries.names r.fields).Nodup := h.of_cons.of_cons
  refine ⟨⟨r.toJson.compact, r.sortedFields, ?_, ?_, sortedFields_perm r,
    sortedFields_strict hnodup, Json.parse?_compact (exact_toJson h)⟩, ?_⟩
  · exact line_eq r
  · rw [Json.toList_compact]
    exact controlFree_render_toJson r
  · intro fields hperm
    rw [line, line, sortedFields_congr hperm hnodup]

def forged : LogRecord where
  severity := .error
  event := "QUERY_FAILED\"\x7d\n"
  fields := [("reason", "bad \"pattern\"\n\x7b\"event\":\"FORGED\"\x7d"), ("\x1b\\", "\x00"),
    ("\u00e9", "\u00e9")]

theorem line_readable_forged :
    (∃ text : String, forged.line = text ++ "\n" ∧ '\n' ∉ text.toList ∧
      Json.parse? text = some (.object [("event", .text "QUERY_FAILED\"\x7d\n"),
        ("severity", .text "ERROR"), ("\x1b\\", .text "\x00"),
        ("reason", .text "bad \"pattern\"\n\x7b\"event\":\"FORGED\"\x7d"),
        ("\u00e9", .text "\u00e9")])) ∧
    { forged with fields := forged.fields.reverse }.line = forged.line := by
  obtain ⟨⟨text, sorted, hline, hplain, hperm, hsorted, hparse⟩, hsame⟩ :=
    line_readable (r := forged) (by decide)
  have hfields : sorted = [("\x1b\\", "\x00"),
      ("reason", "bad \"pattern\"\n\x7b\"event\":\"FORGED\"\x7d"), ("\u00e9", "\u00e9")] :=
    eq_of_perm_of_strict (hperm.trans (by decide)) hsorted (by decide)
  refine ⟨⟨text, hline, ?_, ?_⟩, hsame _ (List.reverse_perm _)⟩
  · intro hmem
    exact hplain '\n' hmem (by decide)
  · rw [hparse, hfields]
    rfl

end LogRecord

end TableQuery
