import LedgerConformance.Proofs.Text.Occurrence
import LedgerConformance.Proofs.Text.SmallForms
import LedgerConformance.Verdict

/-!
Expected messages that are reported letter by letter. The reported messages are put into
small letters together, an expected one alone. So it is found where it stands as it is
written, unless one of its capital sigmas ends a word in one of the two and not in the
other, as where the expected message breaks off within a word.
-/

namespace LedgerConformance.Verdict

open Text

/-! ### The text that is searched -/

/-- A reported message stands in the joined ones between texts that a space cuts off. -/
theorem exists_intercalate_eq {message : String} {messages : List String}
    (h : message ∈ messages) :
    ∃ start finish, (" ".intercalate messages).toList = start ++ message.toList ++ finish ∧
      IsApart start.reverse ∧ IsApart finish := by
  induction messages with
  | nil => cases h
  | cons first rest ih =>
    cases rest with
    | nil =>
      obtain rfl := List.mem_singleton.mp h
      exact ⟨[], [], by simp, by simp [IsApart], by simp [IsApart]⟩
    | cons second rest =>
      rcases List.mem_cons.mp h with rfl | hrest
      · exact ⟨[], ' ' :: (" ".intercalate (second :: rest)).toList, by simp,
          by simp [IsApart], by simp [IsApart]⟩
      · obtain ⟨start, finish, hsplit, hstart, hfinish⟩ := ih hrest
        refine ⟨first.toList ++ ' ' :: start, finish, by simp [hsplit], ?_, hfinish⟩
        rw [List.reverse_append, List.reverse_cons, List.append_assoc]
        exact hstart.append_space first.toList.reverse

/-- A text stands between these two in a reported message. -/
def StandsIn (o : Outcome) (needle : String) (before after : List Char) : Prop :=
  ∃ message ∈ o.messages, message.toList = before ++ needle.toList ++ after

/-- Where a text stands in a message, the searched text has the small letters that it has
in this place. -/
theorem StandsIn.haystack_eq {o : Outcome} {needle : String} {before after : List Char}
    (h : StandsIn o needle before after) :
    ∃ start finish, (haystack o).toList =
      start ++ lowerWithin before.reverse needle.toList after ++ finish := by
  obtain ⟨message, hmessage, hplace⟩ := h
  obtain ⟨start, finish, hjoined, hstart, hfinish⟩ := exists_intercalate_eq hmessage
  have hsplit : (" ".intercalate o.messages).toList =
      (start ++ before) ++ (needle.toList ++ (after ++ finish)) := by
    rw [hjoined, hplace]
    simp only [List.append_assoc]
  rw [haystack, lower, String.toList_ofList, hsplit, lowerFrom_append, lowerFrom_append,
    List.append_nil, List.reverse_append, lowerWithin_of_isApart hstart hfinish]
  exact ⟨_, _, (List.append_assoc ..).symm⟩

/-- An expected message is found where its sigmas keep their forms. -/
theorem StandsIn.needleRule_eq_none {c : Case} {o : Outcome} {needle : String}
    {before after : List Char} (h : StandsIn o needle before after)
    (hkeeps : KeepsSigmas before.reverse needle.toList after) : needleRule c o needle = none := by
  obtain ⟨start, finish, hhaystack⟩ := h.haystack_eq
  rw [needleRule_eq_none_iff, contains_iff, hhaystack, (lowerWithin_eq_iff ..).mpr hkeeps,
    lower, String.toList_ofList]
  exact ⟨start, finish, rfl⟩

/-! ### The verdict -/

/-- A case that asks for no message. -/
def withoutNeedles (c : Case) : Case := { c with expected := { c.expected with errorContains := [] } }

/-- Rules that are all kept do not count. -/
theorem evaluate_of_needleRules_kept {c : Case} {o : Outcome}
    (h : ∀ rule ∈ needleRules c o, rule = none) : evaluate c o = evaluate (withoutNeedles c) o := by
  have hkept : (needleRules c o).findSome? id = none := List.findSome?_eq_none_iff.mpr h
  have hnone : needleRules (withoutNeedles c) o = [] := by simp [needleRules, withoutNeedles]
  simp only [evaluate, rules, List.findSome?_append, hkept, hnone]
  rfl

/-- Expected messages that stand in the reported ones as they are written change nothing about
the verdict if their sigmas keep their forms; in every such place the searched text has
the small letters of the expected message exactly if they do, and they do unless a sigma
is in it and a letter beside it. -/
theorem evaluate_finds_needles (c : Case) (o : Outcome) :
    ((∀ needle ∈ c.expected.errorContains, ∃ before after, StandsIn o needle before after ∧
        KeepsSigmas before.reverse needle.toList after) →
      evaluate c o = evaluate (withoutNeedles c) o) ∧
      (∀ needle before after, StandsIn o needle before after →
        (∃ start finish, (haystack o).toList =
            start ++ lowerWithin before.reverse needle.toList after ++ finish) ∧
          (lowerWithin before.reverse needle.toList after = (lower needle).toList ↔
            KeepsSigmas before.reverse needle.toList after)) ∧
      ∀ (needle : String) (before after : List Char),
        ('Σ' ∉ needle.toList ∨ meetsCased before.reverse = false ∧ meetsCased after = false) →
          KeepsSigmas before.reverse needle.toList after := by
  refine ⟨?_, ?_, fun _ _ _ => KeepsSigmas.of_plain⟩
  · intro hneedles
    refine evaluate_of_needleRules_kept (needleRules_kept_iff.mpr fun _ needle hneedle => ?_)
    obtain ⟨before, after, hstands, hkeeps⟩ := hneedles needle hneedle
    exact needleRule_eq_none_iff.mp (hstands.needleRule_eq_none (c := c) hkeeps)
  · intro needle before after hstands
    refine ⟨hstands.haystack_eq, ?_⟩
    rw [lower, String.toList_ofList]
    exact lowerWithin_eq_iff before.reverse needle.toList after

/-- A tool that does not know the account ΛΟΓΑΡΙΑΣΜΟΣ. -/
def greekMessage : Outcome where
  implementation := "tool"
  parse := some .error
  diagnostics := [{ message := "ΑΓΝΩΣΤΟΣ ΛΟΓΑΡΙΑΣΜΟΣ" }]

/-- A case that expects a failure with this message. -/
def failingWith (needle : String) : Case where
  id := "first"
  description := "one"
  expected := { parse := some .error, errorContains := [needle] }

/-- Within a word and at its end, sigmas keep their forms. -/
theorem evaluate_finds_needles_greekEnding :
    evaluate (failingWith "ΑΣΜΟΣ") greekMessage =
      evaluate (withoutNeedles (failingWith "ΑΣΜΟΣ")) greekMessage := by
  refine (evaluate_finds_needles (failingWith "ΑΣΜΟΣ") greekMessage).1 fun needle hneedle => ?_
  obtain rfl := List.mem_singleton.mp hneedle
  exact ⟨"ΑΓΝΩΣΤΟΣ ΛΟΓΑΡΙ".toList, [], ⟨_, List.mem_singleton_self _, by decide +kernel⟩,
    by decide +kernel⟩

/-- An expected message that breaks off behind a sigma within a word is not found where it is
reported letter by letter. -/
theorem evaluate_misses_needle :
    StandsIn greekMessage "ΛΟΓΑΡΙΑΣ" "ΑΓΝΩΣΤΟΣ ".toList "ΜΟΣ".toList ∧
      evaluate (withoutNeedles (failingWith "ΛΟΓΑΡΙΑΣ")) greekMessage = none ∧
      (evaluate (failingWith "ΛΟΓΑΡΙΑΣ") greekMessage).map Mismatch.message =
        some "Expected error containing 'ΛΟΓΑΡΙΑΣ' not found in: αγνωστος λογαριασμος" := by
  refine ⟨⟨_, List.mem_singleton_self _, ?_⟩, ?_, ?_⟩ <;> decide +kernel

end LedgerConformance.Verdict
