import LedgerConformance.Proofs.Json.Records
import LedgerConformance.Proofs.Text.Occurrence
import LedgerConformance.Report.Tap

/-!
Reports read line by line. A line tells of a test when it begins as one, with a number
behind that and perhaps the mark of a skip. Everything that is written below a result is
set in and on one line, so a report tells its results as far as their own texts let it:
one line feed in an identifier, a description or a reason can end a line and begin
another one that tells of a test.
-/

namespace LedgerConformance.Report.Tap

open Text (endedLines)

/-! ### A reader of lines -/

/-- What a line tells of a test. -/
structure TestPoint where
  passed : Bool
  number : Option Nat
  skipped : Bool
deriving DecidableEq, Repr

namespace TestPoint

def skipMark : List Char := " # SKIP".toList

/-- The number and, behind it, the mark of a skip, as far as they are there. -/
def ofRest (passed : Bool) (rest : List Char) : TestPoint :=
  let digits := rest.takeWhile Char.isDigit
  { passed
    number := if digits.isEmpty then none else some (Nat.ofDigitChars 10 digits 0)
    skipped := Text.occursIn skipMark (rest.dropWhile Char.isDigit) }

def ofLine? : List Char → Option TestPoint
  | 'o' :: 'k' :: ' ' :: rest => some (ofRest true rest)
  | 'n' :: 'o' :: 't' :: ' ' :: 'o' :: 'k' :: ' ' :: rest => some (ofRest false rest)
  | _ => none

/-- How many tests of each kind are told. -/
def summary (points : List TestPoint) : Summary :=
  { total := points.length
    passed := points.countP fun p => p.passed && !p.skipped
    failed := points.countP fun p => !p.passed
    skipped := points.countP fun p => p.skipped }

theorem ofRest_number (passed : Bool) (number : Nat) (rest : List Char) :
    ofRest passed (Nat.toDigits 10 number ++ ' ' :: rest) =
      ⟨passed, some number, Text.occursIn skipMark (' ' :: rest)⟩ := by
  have hdigits : ∀ c ∈ Nat.toDigits 10 number, c.isDigit = true :=
    fun _ hc => Nat.isDigit_of_mem_toDigits (by omega) (by omega) hc
  have hblank : Json.Number.EndsDigits (' ' :: rest) := by
    intro c hc
    cases hc
    rfl
  unfold ofRest
  simp only [Json.Number.takeWhile_digits hdigits hblank,
    Json.Number.dropWhile_digits hdigits hblank, Nat.ofDigitChars_ten_toDigits,
    List.isEmpty_iff, Nat.toDigits_ne_nil, if_false]

end TestPoint

/-- What a text tells of tests, line by line. -/
def told (text : String) : List TestPoint :=
  (Text.linesOf text.toList).filterMap TestPoint.ofLine?

/-- What there is to tell of results: whether each one passed, its number from one on, and
whether it was skipped. -/
def points (results : List Result) : List TestPoint :=
  (results.zipIdx 1).map fun (r, number) => ⟨r.passed, some number, r.isSkipped⟩

theorem summary_points (results : List Result) :
    TestPoint.summary (points results) = Summary.ofResults results := by
  have hcount : ∀ p : TestPoint → Bool, ∀ q : Result → Bool,
      (∀ r number, p ⟨r.passed, some number, r.isSkipped⟩ = q r) →
        (points results).countP p = results.countP q := by
    intro p q h
    rw [points, List.countP_map]
    have hfirst : (results.zipIdx 1).countP (q ∘ Prod.fst) = results.countP q := by
      rw [← List.countP_map, List.zipIdx_map_fst]
    rw [← hfirst]
    exact List.countP_congr fun place _ => by simp [h]
  have htotal : (points results).length = results.length := by
    rw [points, List.length_map, List.length_zipIdx]
  have hpassed := hcount (fun p => p.passed && !p.skipped) (·.status == .pass) fun r _ => by
    unfold Result.passed Result.isSkipped
    cases r.status <;> rfl
  have hfailed := hcount (fun p => !p.passed) (·.status == .fail) fun r _ => by
    unfold Result.passed
    cases r.status <;> rfl
  have hskipped := hcount (fun p => p.skipped) (·.status == .skip) fun r _ => rfl
  rw [TestPoint.summary, Summary.ofResults, htotal, hpassed, hfailed, hskipped]

/-! ### The lines below a result -/

/-- A line that is set in and holds no line feed. -/
def IsInset (line : String) : Prop := "  ".toList <+: line.toList ∧ '\n' ∉ line.toList

theorem IsInset.append {line rest : String} (h : IsInset line) (hrest : '\n' ∉ rest.toList) :
    IsInset (line ++ rest) := by
  obtain ⟨hstart, hfeed⟩ := h
  rw [IsInset, String.toList_append]
  exact ⟨hstart.trans (List.prefix_append _ _), by simp [hfeed, hrest]⟩

theorem IsInset.told_nothing {line : String} (h : IsInset line) :
    (endedLines line.toList).filterMap TestPoint.ofLine? = [] := by
  obtain ⟨⟨rest, hrest⟩, hfeed⟩ := h
  have hreturn : Text.dropReturn line.toList = "  ".toList ++ Text.dropReturn rest := by
    rw [← hrest, Text.dropReturn_append (by decide)]
  rw [Text.endedLines_of_not_mem hfeed, hreturn]
  rfl

theorem toList_quotedMessage (message : String) :
    (quotedMessage message).toList = Text.replaceAll ['"'] ['\\', '"']
      (Text.replaceAll ['\n'] ['\\', 'n'] message.toList) := by
  simp only [quotedMessage, Text.replaceText, String.toList_ofList]
  rfl

theorem feed_not_mem_quotedMessage (message : String) :
    '\n' ∉ (quotedMessage message).toList := by
  have hescaped : '\n' ∉ Text.replaceAll ['\n'] ['\\', 'n'] message.toList := by
    rw [Text.replaceAll_singleton, List.mem_flatMap]
    rintro ⟨c, -, hc⟩
    split at hc
    · simp at hc
    · rename_i hne
      exact hne (List.mem_singleton.mp hc).symm
  rw [toList_quotedMessage, Text.replaceAll_singleton, List.mem_flatMap]
  rintro ⟨c, hmem, hc⟩
  split at hc
  · simp at hc
  · exact hescaped ((List.mem_singleton.mp hc) ▸ hmem)

theorem isInset_payloadLine {key : String} {value : Json} {line : String}
    (hkey : '\n' ∉ key.toList) (h : line ∈ payloadLine key value) : IsInset line := by
  have hstart : IsInset "  " := ⟨by decide, by decide⟩
  have hvalue : '\n' ∉ value.compact.toList := by
    rw [Json.compact, String.toList_ofList]
    exact (Json.printable_compactChars value).feed_not_mem
  unfold payloadLine at h
  split at h
  · rw [List.mem_singleton.mp h]
    exact ((hstart.append hkey).append (by decide)).append hvalue
  · cases h

theorem printable_toString (n : Nat) : Json.Printable (toString n).toList := by
  have hdigits : (toString n).toList = Nat.toDigits 10 n := Nat.toList_repr
  rw [hdigits]
  exact Json.printable_toDigits n

theorem printable_append {s t : String} (hs : Json.Printable s.toList)
    (ht : Json.Printable t.toList) : Json.Printable (s ++ t).toList := by
  rw [String.toList_append]
  exact hs.append ht

theorem printable_twoPlaces (x : Binary64) : Json.Printable (Decimal.twoPlaces x).toList := by
  have hsign : Json.Printable (if x.negative then ['-'] else []) := by
    split <;> exact Json.printable_of_all rfl
  have hdecimals : ∀ n m : Nat, Json.Printable ('.' :: List.replicate n '0' ++ Nat.toDigits 10 m) :=
    fun n m => ((Json.printable_zeros n).append (Json.printable_toDigits m)).cons (by decide)
  unfold Decimal.twoPlaces
  dsimp only
  rw [String.toList_ofList, List.append_assoc _ ('.' :: _)]
  exact (hsign.append (Json.printable_toDigits _)).append (hdecimals _ _)

theorem isInset_block {r : Result} {line : String} (h : line ∈ block r) : IsInset line := by
  have hmismatch : ∀ m : Mismatch, ∀ line ∈ mismatchLines m, IsInset line := by
    intro m line hline
    have hmessage : IsInset "  message: \"" := ⟨by decide, by decide⟩
    rw [mismatchLines, List.mem_cons, List.mem_append] at hline
    rcases hline with rfl | hexpected | hactual
    · exact (hmessage.append (feed_not_mem_quotedMessage _)).append (by decide)
    · exact isInset_payloadLine (by decide) hexpected
    · exact isInset_payloadLine (by decide) hactual
  have hduration : ∀ line ∈ durationLine r, IsInset line := by
    intro line hline
    have hlabel : IsInset "  duration_ms: " := ⟨by decide, by decide⟩
    unfold durationLine at hline
    split at hline
    · cases hline
    · rw [List.mem_singleton.mp hline]
      exact hlabel.append (printable_twoPlaces _).feed_not_mem
  rw [block, List.mem_cons, List.mem_append, List.mem_append, List.mem_singleton] at h
  rcases h with rfl | (hlines | htime) | rfl
  · exact ⟨by decide, by decide⟩
  · cases hm : r.mismatch with
    | none => simp [hm] at hlines
    | some m =>
      rw [hm] at hlines
      exact hmismatch m line hlines
  · exact hduration line htime
  · exact ⟨by decide, by decide⟩

/-! ### The line of a result -/

/-- What stands behind the number of a result. -/
def headText (r : Result) : String :=
  label r ++ if r.isSkipped then " # SKIP " ++ r.skipReason.getD "" else ""

/-- What stands before it. -/
def headStart (number : Nat) (r : Result) : String :=
  (if r.passed then "ok" else "not ok") ++ " " ++ toString number ++ " - "

theorem resultLines_eq (verbose : Bool) (number : Nat) (r : Result) :
    ∃ below, resultLines verbose number r = (headStart number r ++ headText r) :: below ∧
      ∀ line ∈ below, IsInset line := by
  unfold resultLines headStart headText
  by_cases hskip : r.isSkipped = true
  · exact ⟨[], by simp [hskip, String.append_assoc], by simp⟩
  · by_cases hplain : (r.passed && !(verbose && !r.milliseconds.isZero)) = true
    · exact ⟨[], by simp only [hskip, hplain, if_true, if_false, String.append_assoc,
        String.append_empty, Bool.false_eq_true], by simp⟩
    · exact ⟨block r, by simp only [hskip, hplain, if_false, String.append_assoc,
        String.append_empty, Bool.false_eq_true], fun _ h => isInset_block h⟩

/-- The lines that the text of a result makes; the first of them stands behind its number. -/
def headLines (r : Result) : List (List Char) := endedLines (headText r).toList

/-- What the line with the number of a result tells. -/
def headPoint (number : Nat) (r : Result) : TestPoint :=
  ⟨r.passed, some number,
    Text.occursIn TestPoint.skipMark (" - ".toList ++ (headLines r).headD [])⟩

theorem toList_headStart (number : Nat) (r : Result) :
    (headStart number r).toList =
      (if r.passed then "ok ".toList else "not ok ".toList) ++
        (Nat.toDigits 10 number ++ " - ".toList) := by
  unfold headStart
  split <;> simp

theorem printable_headStart (number : Nat) (r : Result) :
    Json.Printable (headStart number r).toList := by
  have hstatus : Json.Printable (if r.passed then "ok ".toList else "not ok ".toList) := by
    split <;> exact Json.printable_of_all rfl
  rw [toList_headStart]
  exact hstatus.append ((Json.printable_toDigits number).append (Json.printable_of_all rfl))

theorem ofLine?_head (number : Nat) (r : Result) (rest : List Char) :
    TestPoint.ofLine? ((headStart number r).toList ++ rest) =
      some ⟨r.passed, some number,
        Text.occursIn TestPoint.skipMark (" - ".toList ++ rest)⟩ := by
  have hpoint : ∀ passed : Bool,
      TestPoint.ofRest passed (Nat.toDigits 10 number ++ " - ".toList ++ rest) =
        ⟨passed, some number, Text.occursIn TestPoint.skipMark (" - ".toList ++ rest)⟩ := by
    intro passed
    rw [List.append_assoc]
    exact TestPoint.ofRest_number passed number _
  rw [toList_headStart, List.append_assoc]
  cases r.passed with
  | true => exact congrArg some (hpoint true)
  | false => exact congrArg some (hpoint false)

theorem told_head (number : Nat) (r : Result) :
    (endedLines (headStart number r ++ headText r).toList).filterMap TestPoint.ofLine? =
      headPoint number r :: (headLines r).tail.filterMap TestPoint.ofLine? := by
  have hlast : (headStart number r).toList.getLast? ≠ some '\r' := by
    have hblank : " - ".toList.getLast? = some ' ' := by decide
    rw [toList_headStart, ← List.append_assoc, List.getLast?_append, hblank, Option.some_or]
    decide
  -- The start holds no line feed, so it goes before the first line of the text.
  rw [String.toList_append,
    Text.endedLines_append (printable_headStart number r).feed_not_mem hlast, headPoint]
  change ((headLines r).modifyHead _).filterMap _ = _
  obtain ⟨first, others, hlines⟩ := List.exists_cons_of_ne_nil (Text.endedLines_ne_nil _)
  rw [headLines, hlines, List.modifyHead_cons, List.filterMap_cons, ofLine?_head]
  rfl

/-! ### Reports -/

/-- What is told of one result: its own point, and whatever else its text tells. -/
theorem told_resultLines (verbose : Bool) (number : Nat) (r : Result) :
    ((resultLines verbose number r).flatMap fun line =>
        (endedLines line.toList).filterMap TestPoint.ofLine?) =
      headPoint number r :: (headLines r).tail.filterMap TestPoint.ofLine? := by
  obtain ⟨below, hlines, hbelow⟩ := resultLines_eq verbose number r
  have hnothing : (below.flatMap fun line =>
      (endedLines line.toList).filterMap TestPoint.ofLine?) = [] :=
    List.flatMap_eq_nil_iff.mpr fun line hline => (hbelow line hline).told_nothing
  rw [hlines, List.flatMap_cons, hnothing, List.append_nil, told_head]

theorem told_resultsFrom (verbose : Bool) (number : Nat) (results : List Result) :
    ((resultsFrom verbose number results).flatMap fun line =>
        (endedLines line.toList).filterMap TestPoint.ofLine?) =
      (results.zipIdx (number + 1)).flatMap fun (r, number) =>
        headPoint number r :: (headLines r).tail.filterMap TestPoint.ofLine? := by
  induction results generalizing number with
  | nil => rfl
  | cons r rest ih =>
    rw [resultsFrom, List.flatMap_append, told_resultLines, ih, List.zipIdx_cons,
      List.flatMap_cons]

theorem linesOf_render (verbose : Bool) (results : List Result) :
    Text.linesOf (render verbose results).toList =
      (lines verbose results).flatMap fun line => endedLines line.toList := by
  have hchars : (render verbose results).toList =
      ((lines verbose results).map String.toList).flatMap (· ++ ['\n']) := by
    rw [render, String.toList_join, List.flatMap_map, List.flatMap_map]
    simp only [String.toList_append]
    rfl
  rw [hchars, Text.linesOf_ended, List.flatMap_map]

theorem printable_planLine (n : Nat) : Json.Printable ("1.." ++ toString n).toList :=
  printable_append (Json.printable_of_all rfl) (printable_toString n)

theorem printable_countsLine (s : Summary) : Json.Printable (countsLine s).toList := by
  have hword : ∀ {line word : String} {n : Nat}, Json.Printable line.toList →
      Json.Printable word.toList → Json.Printable (line ++ word ++ toString n).toList :=
    fun hline hword => printable_append (printable_append hline hword) (printable_toString _)
  refine hword (hword (hword (printable_append ?_ (printable_toString _)) ?_) ?_) ?_
  all_goals exact Json.printable_of_all rfl

theorem ofLine?_countsLine (s : Summary) : TestPoint.ofLine? (countsLine s).toList = none := by
  have hstart : ∀ {line rest : String},
      ['#'] <+: line.toList → ['#'] <+: (line ++ rest).toList := by
    intro line rest h
    rw [String.toList_append]
    exact h.trans (List.prefix_append _ _)
  have hcounts : ['#'] <+: (countsLine s).toList :=
    hstart (hstart (hstart (hstart (hstart (hstart (hstart (by decide)))))))
  obtain ⟨rest, hrest⟩ := hcounts
  rw [← hrest]
  rfl

/-- The lines of a report: the version, the plan, what the results make, a blank line and
the counts. -/
theorem linesOf_render_eq (verbose : Bool) (results : List Result) :
    Text.linesOf (render verbose results).toList =
      "TAP version 14".toList :: ("1.." ++ toString results.length).toList ::
        (((resultsFrom verbose 0 results).flatMap fun line => endedLines line.toList) ++
          [[], (countsLine (Summary.ofResults results)).toList]) := by
  have hversion : endedLines "TAP version 14".toList = ["TAP version 14".toList] := rfl
  have hblank : endedLines "".toList = [[]] := rfl
  rw [linesOf_render, lines, List.flatMap_append, List.flatMap_append, List.flatMap_cons,
    List.flatMap_cons, List.flatMap_cons, List.flatMap_cons, List.flatMap_nil, hversion,
    hblank, (printable_planLine _).endedLines, (printable_countsLine _).endedLines]
  rfl

/-- A report tells the point of every result, in order, and behind each what else the
text of the result tells. -/
theorem told_render (verbose : Bool) (results : List Result) :
    told (render verbose results) =
      (results.zipIdx 1).flatMap fun (r, number) =>
        headPoint number r :: (headLines r).tail.filterMap TestPoint.ofLine? := by
  have hplan : TestPoint.ofLine? ("1.." ++ toString results.length).toList = none := by
    rw [String.toList_append]
    rfl
  have hcounts := ofLine?_countsLine (Summary.ofResults results)
  have hversion : TestPoint.ofLine? "TAP version 14".toList = none := rfl
  have hblank : TestPoint.ofLine? [] = none := rfl
  rw [told, linesOf_render_eq, List.filterMap_cons_none hversion, List.filterMap_cons_none hplan,
    List.filterMap_append, List.filterMap_cons_none hblank, List.filterMap_cons_none hcounts,
    List.filterMap_nil, List.append_nil, List.filterMap_flatMap, told_resultsFrom]

/-- A result whose text tells nothing but the result itself. -/
structure Plain (r : Result) : Prop where
  /-- No line of the text behind the first one tells of a test. -/
  alone : ∀ line ∈ (headLines r).tail, TestPoint.ofLine? line = none
  /-- The first one has the mark of a skip if the result was skipped, and only then. -/
  marked : Text.occursIn TestPoint.skipMark (" - ".toList ++ (headLines r).headD []) = r.isSkipped

theorem flatMap_cons_eq_map_iff {α β : Type} {first shown : α → β} {more : α → List β}
    {items : List α} :
    (items.flatMap fun a => first a :: more a) = items.map shown ↔
      ∀ a ∈ items, first a = shown a ∧ more a = [] := by
  have hlength : ∀ rest : List α,
      rest.length ≤ (rest.flatMap fun a => first a :: more a).length := by
    intro rest
    induction rest with
    | nil => exact Nat.le_refl 0
    | cons a rest ih =>
      rw [List.flatMap_cons, List.length_append, List.length_cons, List.length_cons]
      omega
  induction items with
  | nil => simp
  | cons a rest ih =>
    constructor
    · intro h
      rw [List.flatMap_cons, List.map_cons, List.cons_append] at h
      obtain ⟨hfirst, htail⟩ := List.cons_eq_cons.mp h
      -- Every result gives one point at least, so there is no room for more.
      have hcount := congrArg List.length htail
      have hrest := hlength rest
      rw [List.length_append, List.length_map] at hcount
      have hmore : more a = [] := List.length_eq_zero_iff.mp (by omega)
      rw [hmore, List.nil_append] at htail
      exact List.forall_mem_cons.mpr ⟨⟨hfirst, hmore⟩, ih.mp htail⟩
    · intro h
      obtain ⟨⟨hfirst, hmore⟩, hrest⟩ := List.forall_mem_cons.mp h
      rw [List.flatMap_cons, List.map_cons, hfirst, hmore, ih.mpr hrest]
      rfl

/-- The plan gives the number of the results and the last line their counts. The lines
between tell exactly these results, if and only if the text of every result is plain. -/
theorem told_render_eq_points_iff (verbose : Bool) (results : List Result) :
    (Text.lines (render verbose results))[1]? = some ("1.." ++ toString results.length) ∧
      (Text.lines (render verbose results)).getLast? =
        some (countsLine (TestPoint.summary (points results))) ∧
      (told (render verbose results) = points results ↔ ∀ r ∈ results, Plain r) := by
  refine ⟨?_, ?_, ?_⟩
  · rw [Text.lines, linesOf_render_eq, List.getElem?_map, List.getElem?_cons_succ,
      List.getElem?_cons_zero, Option.map_some, String.ofList_toList]
  · rw [Text.lines, linesOf_render_eq, summary_points, List.getLast?_map, ← List.cons_append,
      ← List.cons_append, List.getLast?_append, List.getLast?_cons_cons, List.getLast?_singleton,
      Option.some_or, Option.map_some, String.ofList_toList]
  · have hplain : ∀ r number, headPoint number r = ⟨r.passed, some number, r.isSkipped⟩ ∧
        (headLines r).tail.filterMap TestPoint.ofLine? = [] ↔ Plain r := by
      intro r number
      rw [List.filterMap_eq_nil_iff]
      constructor
      · rintro ⟨hpoint, halone⟩
        exact ⟨halone, congrArg TestPoint.skipped hpoint⟩
      · intro h
        exact ⟨by rw [headPoint, h.marked], h.alone⟩
    rw [told_render, points, flatMap_cons_eq_map_iff]
    constructor
    · intro h r hr
      rw [← List.zipIdx_map_fst 1 results] at hr
      obtain ⟨place, hplace, rfl⟩ := List.mem_map.mp hr
      exact (hplain _ _).mp (h place hplace)
    · intro h place hplace
      exact (hplain _ _).mpr (h place.1 (List.fst_mem_of_mem_zipIdx hplace))

/-- A pass whose description goes on in a line of its own. -/
def brokenPass : Result where
  id := "first"
  description := "all is well\nnot ok 2 - second"
  suite := "sample"
  kind := .parsing
  status := .pass
  skipReason := none
  specRef := none
  mismatch := none
  duration := 0

/-- One result that passed, and two that are told, the second one as failed. -/
theorem told_brokenPass :
    points [brokenPass] = [⟨true, some 1, false⟩] ∧
      told (render false [brokenPass]) = [⟨true, some 1, false⟩, ⟨false, some 2, false⟩] := by
  refine ⟨rfl, ?_⟩
  rw [told_render]
  rfl

end LedgerConformance.Report.Tap
