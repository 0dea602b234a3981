import LedgerConformance.Proofs.Report.TapLines
import Mathlib.Data.List.Chain

/-!
Messages of failures read back. A message stands between quotes, with its line feeds and
its quotes escaped and its backslashes as they are. So the text between the quotes says
the message exactly when no backslash of the message stands before a character that makes
an escape with it, and two messages make the same line exactly when they differ in
nothing but line feeds and their escapes.
-/

namespace LedgerConformance.Report.Tap

/-! ### A reader of quoted texts -/

/-- A part of a quoted text: a character that stands for itself, or one that is escaped by
the backslash before it. -/
inductive Part where
  | plain (c : Char)
  | escaped (c : Char)
deriving DecidableEq, Repr

/-- What a backslash can stand before in an escape. -/
def escapes : List Char := ['n', '"', '\\']

def Part.meaning : Part → Char
  | plain c => c
  | escaped c => if c = 'n' then '\n' else c

/-- The parts of a quoted text from left to right. A backslash that makes no escape with
the next character stands for itself. -/
def parts : List Char → List Part
  | [] => []
  | [c] => [.plain c]
  | c :: d :: rest =>
    if c = '\\' ∧ d ∈ escapes then .escaped d :: parts rest else .plain c :: parts (d :: rest)

/-- A text with its escapes undone. -/
def unescaped (text : List Char) : List Char := (parts text).map Part.meaning

theorem parts_cons {c : Char} (hc : c ≠ '\\') (rest : List Char) :
    parts (c :: rest) = .plain c :: parts rest := by
  cases rest with
  | nil => rfl
  | cons d rest => rw [parts, if_neg fun h => hc h.1]

theorem parts_escape {d : Char} (hd : d ∈ escapes) (rest : List Char) :
    parts ('\\' :: d :: rest) = .escaped d :: parts rest := by
  rw [parts, if_pos ⟨rfl, hd⟩]

theorem parts_backslash {d : Char} (hd : d ∉ escapes) (rest : List Char) :
    parts ('\\' :: d :: rest) = .plain '\\' :: parts (d :: rest) := by
  rw [parts, if_neg fun h => hd h.2]

/-! ### Messages between quotes -/

/-- A character of a message as it is written between the quotes. -/
def quotedChar (c : Char) : List Char :=
  if c = '\n' then ['\\', 'n'] else if c = '"' then ['\\', '"'] else [c]

/-- The characters of a message between the quotes. -/
def quotedChars (s : List Char) : List Char := s.flatMap quotedChar

theorem toList_quotedMessage_eq (message : String) :
    (quotedMessage message).toList = quotedChars message.toList := by
  rw [toList_quotedMessage, Text.replaceAll_singleton, Text.replaceAll_singleton,
    List.flatMap_assoc, quotedChars]
  apply List.flatMap_congr
  intro c _
  unfold quotedChar
  by_cases hfeed : c = '\n'
  · rw [if_pos hfeed, if_pos hfeed]
    rfl
  · rw [if_neg hfeed, if_neg hfeed, List.flatMap_singleton]

theorem quotedChars_cons (c : Char) (rest : List Char) :
    quotedChars (c :: rest) = quotedChar c ++ quotedChars rest := List.flatMap_cons

/-- The part that a character makes where no backslash stands before it. -/
def ownPart (c : Char) : Part :=
  if c = '\n' then .escaped 'n' else if c = '"' then .escaped '"' else .plain c

theorem parts_quotedChar_append {c : Char} (hc : c ≠ '\\') (rest : List Char) :
    parts (quotedChar c ++ rest) = ownPart c :: parts rest := by
  unfold quotedChar ownPart
  split
  · exact parts_escape (by decide) rest
  · split
    · exact parts_escape (by decide) rest
    · exact parts_cons hc rest

theorem meaning_ownPart (c : Char) : (ownPart c).meaning = c := by
  unfold ownPart
  split
  · rename_i hfeed
    exact hfeed.symm
  · split
    · rename_i hquote
      exact hquote.symm
    · rfl

theorem ownPart_ne_quote (c : Char) : ownPart c ≠ .plain '"' := by
  unfold ownPart
  split
  · exact Part.noConfusion
  · split
    · exact Part.noConfusion
    · rename_i hquote
      exact fun h => hquote (Part.plain.inj h)

/-- The text of a message between the quotes holds no quote outside an escape, and says
the message. -/
structure ReadsBack (s : List Char) : Prop where
  quotes : .plain '"' ∉ parts (quotedChars s)
  meaning : unescaped (quotedChars s) = s

/-- A character with a part of its own, which says it and is no quote, changes nothing. -/
theorem readsBack_iff_of_parts {c : Char} {rest : List Char} {part : Part}
    (hparts : parts (quotedChars (c :: rest)) = part :: parts (quotedChars rest))
    (hquote : part ≠ .plain '"') (hmeaning : part.meaning = c) :
    ReadsBack (c :: rest) ↔ ReadsBack rest := by
  have hquotes : .plain '"' ∉ parts (quotedChars (c :: rest)) ↔
      .plain '"' ∉ parts (quotedChars rest) := by
    rw [hparts, List.mem_cons, not_or]
    exact and_iff_right hquote.symm
  have hmessage : unescaped (quotedChars (c :: rest)) = c :: rest ↔
      unescaped (quotedChars rest) = rest := by
    rw [unescaped, hparts, List.map_cons, hmeaning, List.cons.injEq]
    exact and_iff_right rfl
  constructor
  · intro h
    exact ⟨hquotes.mp h.quotes, hmessage.mp h.meaning⟩
  · intro h
    exact ⟨hquotes.mpr h.quotes, hmessage.mpr h.meaning⟩

theorem readsBack_cons_iff {c : Char} (hc : c ≠ '\\') (rest : List Char) :
    ReadsBack (c :: rest) ↔ ReadsBack rest := by
  refine readsBack_iff_of_parts ?_ (ownPart_ne_quote c) (meaning_ownPart c)
  rw [quotedChars_cons, parts_quotedChar_append hc]

/-! ### Backslashes in messages -/

section Backslash

variable (rest : List Char)

theorem parts_backslash_n :
    parts (quotedChars ('\\' :: 'n' :: rest)) = .escaped 'n' :: parts (quotedChars rest) := by
  rw [quotedChars_cons, quotedChars_cons]
  exact parts_escape (by decide) _

theorem parts_backslash_backslash :
    parts (quotedChars ('\\' :: '\\' :: rest)) = .escaped '\\' :: parts (quotedChars rest) := by
  rw [quotedChars_cons, quotedChars_cons]
  exact parts_escape (by decide) _

theorem parts_backslash_quote :
    parts (quotedChars ('\\' :: '"' :: rest)) =
      .escaped '\\' :: .plain '"' :: parts (quotedChars rest) := by
  rw [quotedChars_cons, quotedChars_cons, ← parts_cons (by decide)]
  exact parts_escape (by decide) _

theorem parts_backslash_feed :
    parts (quotedChars ('\\' :: '\n' :: rest)) =
      .escaped '\\' :: .plain 'n' :: parts (quotedChars rest) := by
  rw [quotedChars_cons, quotedChars_cons, ← parts_cons (by decide)]
  exact parts_escape (by decide) _

/-- What makes an escape behind a backslash of a message: the characters of the escapes,
and the line feed, whose own escape begins with a backslash. -/
def disturbing : List Char := '\n' :: escapes

theorem quotedChar_of_not_mem {d : Char} (hd : d ∉ disturbing) : quotedChar d = [d] := by
  have hfeed : d ≠ '\n' := fun h => hd (h ▸ by decide)
  have hquote : d ≠ '"' := fun h => hd (h ▸ by decide)
  rw [quotedChar, if_neg hfeed, if_neg hquote]

theorem parts_backslash_append {d : Char} (hd : d ∉ disturbing) (more : List Char) :
    parts ('\\' :: (quotedChars (d :: rest) ++ more)) =
      .plain '\\' :: parts (quotedChars (d :: rest) ++ more) := by
  rw [quotedChars_cons, quotedChar_of_not_mem hd]
  exact parts_backslash (fun hescape => hd (List.mem_cons_of_mem _ hescape)) _

theorem parts_backslash_other {d : Char} (hd : d ∉ disturbing) :
    parts (quotedChars ('\\' :: d :: rest)) = .plain '\\' :: parts (quotedChars (d :: rest)) := by
  have hparts := parts_backslash_append rest hd []
  rw [List.append_nil] at hparts
  exact hparts

end Backslash

/-- A message says at least as many characters as are read from its quoted text. -/
theorem length_parts_quotedChars_le (s : List Char) :
    (parts (quotedChars s)).length ≤ s.length := by
  have hown : ∀ {c : Char} (rest : List Char), c ≠ '\\' →
      (parts (quotedChars (c :: rest))).length = (parts (quotedChars rest)).length + 1 := by
    intro c rest hc
    rw [quotedChars_cons, parts_quotedChar_append hc, List.length_cons]
  induction s using parts.induct with
  | case1 => exact Nat.le_refl 0
  | case2 c =>
    by_cases hc : c = '\\'
    · rw [hc]
      exact Nat.le_refl 1
    · rw [hown [] hc]
      exact Nat.le_refl 1
  | case3 c d rest hescape ih =>
    obtain ⟨rfl, hd⟩ := hescape
    simp only [escapes, List.mem_cons, List.not_mem_nil, or_false] at hd
    simp only [List.length_cons]
    rcases hd with rfl | rfl | rfl
    · rw [parts_backslash_n, List.length_cons]
      omega
    · rw [parts_backslash_quote, List.length_cons, List.length_cons]
      omega
    · rw [parts_backslash_backslash, List.length_cons]
      omega
  | case4 c d rest hplain ih =>
    simp only [List.length_cons] at ih ⊢
    by_cases hc : c = '\\'
    · subst hc
      by_cases hfeed : d = '\n'
      · subst hfeed
        rw [hown rest (by decide)] at ih
        rw [parts_backslash_feed, List.length_cons, List.length_cons]
        omega
      · have hd : d ∉ disturbing := by
          rw [disturbing, List.mem_cons, not_or]
          exact ⟨hfeed, fun hd => hplain ⟨rfl, hd⟩⟩
        rw [parts_backslash_other rest hd, List.length_cons]
        omega
    · rw [hown (d :: rest) hc]
      omega

theorem readsBack_backslash_iff {d : Char} (hd : d ∉ disturbing) (rest : List Char) :
    ReadsBack ('\\' :: d :: rest) ↔ ReadsBack (d :: rest) :=
  readsBack_iff_of_parts (parts_backslash_other rest hd) (by decide) rfl

/-- A backslash before one of these characters is lost, or ends the escape of another. -/
theorem not_readsBack_backslash {d : Char} (hd : d ∈ disturbing) (rest : List Char) :
    ¬ ReadsBack ('\\' :: d :: rest) := by
  intro h
  have hmeaning := h.meaning
  simp only [disturbing, escapes, List.mem_cons, List.not_mem_nil, or_false] at hd
  rw [unescaped] at hmeaning
  rcases hd with rfl | rfl | rfl | rfl
  · rw [parts_backslash_feed] at hmeaning
    exact absurd (List.cons.inj (List.cons.inj hmeaning).2).1 (by decide)
  · rw [parts_backslash_n] at hmeaning
    exact absurd (List.cons.inj hmeaning).1 (by decide)
  · have hquotes := h.quotes
    rw [parts_backslash_quote] at hquotes
    exact hquotes (List.mem_cons_of_mem _ List.mem_cons_self)
  · -- The two are read as one, and there are not enough characters to make up for it.
    rw [parts_backslash_backslash, List.map_cons] at hmeaning
    have hlength := congrArg List.length (List.cons.inj hmeaning).2
    have hle := length_parts_quotedChars_le rest
    rw [List.length_map, List.length_cons] at hlength
    omega

/-- No backslash stands before a character that it would make an escape with. -/
def Legible (s : List Char) : Prop := s.IsChain fun c d => c = '\\' → d ∉ disturbing

instance : DecidablePred Legible := fun s =>
  inferInstanceAs (Decidable (s.IsChain fun c d => c = '\\' → d ∉ disturbing))

/-- A message is read back exactly when it is legible. -/
theorem readsBack_iff (s : List Char) : ReadsBack s ↔ Legible s := by
  induction s with
  | nil =>
    constructor
    · intro _
      exact List.IsChain.nil
    · intro _
      exact ⟨by simp [quotedChars, parts], rfl⟩
  | cons c rest ih =>
    by_cases hc : c = '\\'
    · subst hc
      cases rest with
      | nil =>
        constructor
        · intro _
          exact List.IsChain.singleton _
        · intro _
          exact ⟨by decide, rfl⟩
      | cons d rest =>
        rw [Legible, List.isChain_cons_cons, ← Legible, ← ih]
        by_cases hd : d ∈ disturbing
        · constructor
          · intro h
            exact absurd h (not_readsBack_backslash hd rest)
          · rintro ⟨hlegible, -⟩
            exact absurd hd (hlegible rfl)
        · rw [readsBack_backslash_iff hd]
          exact (and_iff_right fun _ => hd).symm
    · rw [readsBack_cons_iff hc, ih]
      cases rest with
      | nil => simp [Legible]
      | cons d rest =>
        rw [Legible, Legible, List.isChain_cons_cons]
        exact (and_iff_right fun h => absurd h hc).symm

/-- A legible message that does not end with a backslash is read on its own, whatever
stands behind it. -/
theorem Legible.parts_append {s : List Char} (h : Legible s) (hlast : s.getLast? ≠ some '\\')
    (rest : List Char) :
    parts (quotedChars s ++ rest) = parts (quotedChars s) ++ parts rest := by
  induction s with
  | nil => rfl
  | cons c s ih =>
    cases s with
    | nil =>
      have hc : c ≠ '\\' := fun hc => hlast (congrArg some hc)
      rw [quotedChars_cons, List.append_assoc, parts_quotedChar_append hc,
        parts_quotedChar_append hc]
      rfl
    | cons d s =>
      obtain ⟨hcd, hlegible⟩ := List.isChain_cons_cons.mp h
      have hafter := ih hlegible (by rwa [List.getLast?_cons_cons] at hlast)
      by_cases hc : c = '\\'
      · subst hc
        have hd : d ∉ disturbing := hcd rfl
        have hbackslash : quotedChars ('\\' :: d :: s) = '\\' :: quotedChars (d :: s) := rfl
        rw [parts_backslash_other s hd, hbackslash, List.cons_append,
          parts_backslash_append s hd, hafter, List.cons_append]
      · rw [quotedChars_cons, List.append_assoc, parts_quotedChar_append hc,
          parts_quotedChar_append hc, hafter, List.cons_append]

/-- The closing quote of a legible message is told from an escape unless a backslash ends
the message. -/
theorem Legible.closes_iff {s : List Char} (h : Legible s) :
    parts (quotedChars s ++ ['"']) = parts (quotedChars s) ++ [.plain '"'] ↔
      s.getLast? ≠ some '\\' := by
  constructor
  · intro hparts hlast
    obtain ⟨before, rfl⟩ := List.getLast?_eq_some_iff.mp hlast
    obtain ⟨hbefore, -, hneighbours⟩ := List.isChain_append.mp h
    have hown : before.getLast? ≠ some '\\' := fun hc =>
      hneighbours '\\' hc '\\' rfl rfl (by decide)
    have hquoted : quotedChars (before ++ ['\\']) = quotedChars before ++ ['\\'] :=
      List.flatMap_append
    rw [hquoted, List.append_assoc, Legible.parts_append hbefore hown,
      Legible.parts_append hbefore hown, List.append_assoc, List.append_cancel_left_eq] at hparts
    -- The backslash and the quote are one part.
    exact absurd hparts (by decide)
  · intro hlast
    exact h.parts_append hlast ['"']

/-! ### Lines of messages -/

/-- Escaping the quotes loses nothing: each quote of the text has its backslash before it. -/
theorem replaceAll_quote_inj {s t : List Char}
    (h : Text.replaceAll ['"'] ['\\', '"'] s = Text.replaceAll ['"'] ['\\', '"'] t) : s = t := by
  rw [Text.replaceAll_singleton, Text.replaceAll_singleton] at h
  have hstart : ∀ rest more : List Char,
      (rest.flatMap fun d => if d = '"' then ['\\', '"'] else [d]) ≠ '"' :: more := by
    intro rest more heq
    cases rest with
    | nil => cases heq
    | cons d rest =>
      rw [List.flatMap_cons] at heq
      by_cases hd : d = '"'
      · rw [if_pos hd] at heq
        exact absurd (List.cons.inj heq).1 (by decide)
      · rw [if_neg hd] at heq
        exact hd (List.cons.inj heq).1
  induction s generalizing t with
  | nil =>
    cases t with
    | nil => rfl
    | cons d t =>
      rw [List.flatMap_cons] at h
      split at h <;> cases h
  | cons c s ih =>
    cases t with
    | nil =>
      rw [List.flatMap_cons] at h
      split at h <;> cases h
    | cons d t =>
      rw [List.flatMap_cons, List.flatMap_cons] at h
      by_cases hc : c = '"'
      · by_cases hd : d = '"'
        · rw [if_pos hc, if_pos hd, List.append_cancel_left_eq] at h
          rw [hc, hd, ih h]
        · rw [if_pos hc, if_neg hd] at h
          exact absurd (List.cons.inj h).2.symm (hstart t _)
      · by_cases hd : d = '"'
        · rw [if_neg hc, if_pos hd] at h
          exact absurd (List.cons.inj h).2 (hstart s _)
        · rw [if_neg hc, if_neg hd] at h
          obtain ⟨rfl, hrest⟩ := List.cons.inj h
          rw [ih hrest]

/-- The line that tells the message of a failure. -/
def messageLine (m : Mismatch) : String := "  message: \"" ++ quotedMessage m.message ++ "\""

theorem toList_messageLine (m : Mismatch) :
    (messageLine m).toList = "  message: \"".toList ++ quotedChars m.message.toList ++ ['"'] := by
  rw [messageLine, String.toList_append, String.toList_append, toList_quotedMessage_eq]
  rfl

theorem quotedMessage_eq_of_messageLine_eq {m other : Mismatch}
    (h : messageLine m = messageLine other) :
    quotedMessage m.message = quotedMessage other.message := by
  have hlines := congrArg String.toList h
  rw [toList_messageLine, toList_messageLine, List.append_cancel_right_eq,
    List.append_cancel_left_eq] at hlines
  rw [← String.toList_inj, toList_quotedMessage_eq, toList_quotedMessage_eq, hlines]

theorem messageLine_eq_iff {m other : Mismatch} :
    messageLine m = messageLine other ↔
      Text.replaceText m.message "\n" "\\n" = Text.replaceText other.message "\n" "\\n" := by
  constructor
  · intro h
    have hquoted := congrArg String.toList (quotedMessage_eq_of_messageLine_eq h)
    rw [toList_quotedMessage, toList_quotedMessage] at hquoted
    exact congrArg String.ofList (replaceAll_quote_inj hquoted)
  · intro h
    rw [messageLine, messageLine, quotedMessage, quotedMessage, h]

theorem messageLine_of_fail (verbose : Bool) (number : Nat) {r : Result} {m : Mismatch}
    (hstatus : r.status = .fail) (hm : r.mismatch = some m) :
    (resultLines verbose number r)[2]? = some (messageLine m) := by
  have hskip : r.isSkipped = false := by simp [Result.isSkipped, hstatus]
  have hpassed : r.passed = false := by simp [Result.passed, hstatus]
  simp [resultLines, hskip, hpassed, block, hm, mismatchLines, messageLine]

/-- A failure has one line with its message between quotes, and there is no line feed
between them. The text there holds no quote outside an escape and says the message if and
only if the message is legible; then its end is found too, unless a backslash stands there.
Two messages have one line exactly when they are the same with their line feeds written as
escapes, so legible ones never have. -/
theorem messageLine_tells (m : Mismatch) :
    (∀ (verbose : Bool) (number : Nat) (r : Result), r.status = .fail → r.mismatch = some m →
      (resultLines verbose number r)[2]? = some (messageLine m)) ∧
    (∃ text, (messageLine m).toList = "  message: \"".toList ++ text ++ ['"'] ∧ '\n' ∉ text ∧
      (.plain '"' ∉ parts text ∧ unescaped text = m.message.toList ↔
        Legible m.message.toList) ∧
      (Legible m.message.toList → (parts (text ++ ['"']) = parts text ++ [.plain '"'] ↔
        m.message.toList.getLast? ≠ some '\\'))) ∧
    ∀ other : Mismatch,
      (messageLine m = messageLine other ↔ Text.replaceText m.message "\n" "\\n" =
        Text.replaceText other.message "\n" "\\n") ∧
      (Legible m.message.toList → Legible other.message.toList →
        messageLine m = messageLine other → m.message = other.message) := by
  refine ⟨fun verbose number r => messageLine_of_fail verbose number, ?_, ?_⟩
  · refine ⟨quotedChars m.message.toList, toList_messageLine m, ?_, ?_, Legible.closes_iff⟩
    · rw [← toList_quotedMessage_eq]
      exact feed_not_mem_quotedMessage m.message
    · rw [← readsBack_iff]
      constructor
      · rintro ⟨hquotes, hmeaning⟩
        exact ⟨hquotes, hmeaning⟩
      · intro h
        exact ⟨h.quotes, h.meaning⟩
  · intro other
    refine ⟨messageLine_eq_iff, ?_⟩
    intro hm hother h
    have hquoted := congrArg String.toList (quotedMessage_eq_of_messageLine_eq h)
    rw [toList_quotedMessage_eq, toList_quotedMessage_eq] at hquoted
    rw [← String.toList_inj, ← ((readsBack_iff _).mpr hm).meaning, hquoted,
      ((readsBack_iff _).mpr hother).meaning]

/-- A message of two lines with a quoted name and a backslash. -/
def quotedName : Mismatch := ⟨"unknown \"Assets\\Cash\"\nin line 3", .null, .null⟩

theorem messageLine_tells_quotedName :
    Legible quotedName.message.toList ∧
      ∃ text, (messageLine quotedName).toList = "  message: \"".toList ++ text ++ ['"'] ∧
        unescaped text = quotedName.message.toList := by
  have hlegible : Legible quotedName.message.toList := by decide
  obtain ⟨-, ⟨text, hline, -, hread, -⟩, -⟩ := messageLine_tells quotedName
  exact ⟨hlegible, text, hline, (hread.mpr hlegible).2⟩

/-- A path is told as if it held a line feed, and a quote behind a backslash ends the
quoted text. -/
theorem messageLine_backslash :
    messageLine ⟨"C:\\new", .null, .null⟩ = messageLine ⟨"C:\new", .null, .null⟩ ∧
      "C:\\new" ≠ "C:\new" ∧
      unescaped (quotedMessage "C:\\new").toList ≠ "C:\\new".toList ∧
      Part.plain '"' ∈ parts (quotedMessage "\\\"").toList := by
  decide

end LedgerConformance.Report.Tap
