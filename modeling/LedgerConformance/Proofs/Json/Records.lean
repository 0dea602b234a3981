import LedgerConformance.Json.Decode
import LedgerConformance.Proofs.Json.Fields
import LedgerConformance.Proofs.Json.Numbers
import LedgerConformance.Proofs.Json.RoundTrip
import LedgerConformance.Proofs.Text.Pieces

/-!
Records on lines. A record is written as an object without the fields that are missing.
Its text is one line without controls, and from that text every field is read back
where it was.
-/

namespace LedgerConformance.Json

/-! ### Texts on one line -/

/-- No character is one of the controls below the space. -/
def Printable (chars : List Char) : Prop := ∀ c ∈ chars, 0x20 ≤ c.toNat

theorem Printable.append {s t : List Char} (hs : Printable s) (ht : Printable t) :
    Printable (s ++ t) := List.forall_mem_append.mpr ⟨hs, ht⟩

theorem Printable.cons {c : Char} {s : List Char} (hc : 0x20 ≤ c.toNat) (hs : Printable s) :
    Printable (c :: s) := List.forall_mem_cons.mpr ⟨hc, hs⟩

theorem Printable.feed_not_mem {s : List Char} (h : Printable s) : '\n' ∉ s := by
  intro hmem
  have hlow : 0x20 ≤ '\n'.toNat := h _ hmem
  revert hlow
  decide

theorem Printable.dropReturn {s : List Char} (h : Printable s) : Text.dropReturn s = s := by
  apply Text.dropReturn_of_getLast?
  intro hlast
  have hlow : 0x20 ≤ '\r'.toNat := h _ (List.mem_of_getLast? hlast)
  revert hlow
  decide

/-- A text without controls is one line. -/
theorem Printable.endedLines {s : List Char} (h : Printable s) : Text.endedLines s = [s] := by
  rw [Text.endedLines_of_not_mem h.feed_not_mem, h.dropReturn]

theorem printable_of_all {s : List Char} (h : s.all (0x20 ≤ ·.toNat) = true) : Printable s := by
  simpa [Printable] using h

/-- What holds of every control holds of a character below the space. -/
theorem of_control {p : Char → Bool} (h : (List.range 0x20).all (fun n => p (Char.ofNat n)) = true)
    {c : Char} (hc : c.toNat < 0x20) : p c = true := by
  have hp := List.all_eq_true.mp h c.toNat (List.mem_range.mpr hc)
  rwa [Char.ofNat_toNat] at hp

theorem printable_escapedChar (c : Char) : Printable (escapedChar c) := by
  by_cases hcontrol : c.toNat < 0x20
  · exact printable_of_all (of_control (p := fun c => (escapedChar c).all _) rfl hcontrol)
  · have hself : Printable [c] := by
      intro d hd
      rw [List.mem_singleton.mp hd]
      omega
    unfold escapedChar
    split
    · exact printable_of_all rfl
    · split
      · exact printable_of_all rfl
      · exact hself

theorem printable_writeString (s : String) : Printable (writeString s) := by
  have hbody : Printable (s.toList.flatMap escapedChar) := by
    intro d hd
    obtain ⟨c, -, hc⟩ := List.mem_flatMap.mp hd
    exact printable_escapedChar c d hc
  have hquote : 0x20 ≤ '"'.toNat := by decide
  exact (hbody.append (Printable.cons hquote (by simp [Printable]))).cons hquote

theorem printable_of_isDigit {s : List Char} (h : ∀ c ∈ s, c.isDigit = true) : Printable s := by
  intro c hc
  by_contra hlow
  have hnot := of_control (p := fun c => !c.isDigit) rfl (Nat.not_le.mp hlow)
  rw [h c hc] at hnot
  contradiction

theorem printable_toDigits (n : Nat) : Printable (Nat.toDigits 10 n) :=
  printable_of_isDigit fun _ hc => Nat.isDigit_of_mem_toDigits (by omega) (by omega) hc

theorem printable_zeros (n : Nat) : Printable (List.replicate n '0') :=
  printable_of_isDigit fun c hc => by rw [(List.mem_replicate.mp hc).2]; rfl

theorem printable_shortest (x : Binary64) : Printable (Decimal.shortest x).digits := by
  intro c hc
  have hsub := (List.dropWhile_sublist (· == '0')).subset (List.mem_reverse.mp hc)
  exact printable_toDigits _ c (List.mem_reverse.mp hsub)

theorem printable_positional (style : Decimal.Style) {d : Decimal.Digits}
    (h : Printable d.digits) : Printable (Decimal.positional style d) := by
  have hpoint : Printable ['0', '.'] := printable_of_all rfl
  unfold Decimal.positional
  dsimp only
  split
  · exact (hpoint.append (printable_zeros _)).append h
  · split
    · refine (h.append (printable_zeros _)).append ?_
      split <;> exact printable_of_all rfl
    · have htake : Printable (d.digits.take (d.exponent + 1).toNat) :=
        fun c hc => h c (List.mem_of_mem_take hc)
      have hdrop : Printable (d.digits.drop (d.exponent + 1).toNat) :=
        fun c hc => h c (List.mem_of_mem_drop hc)
      exact htake.append (hdrop.cons (by decide))

theorem printable_scientific {d : Decimal.Digits} (h : Printable d.digits) :
    Printable (Decimal.scientific d) := by
  have hmark : 0x20 ≤ 'e'.toNat := by decide
  have hsign : 0x20 ≤ (if d.exponent < 0 then '-' else '+').toNat := by split <;> decide
  have hexponent := ((printable_toDigits d.exponent.natAbs).cons hsign).cons hmark
  unfold Decimal.scientific
  dsimp only
  split
  · rename_i first second rest hdigits
    rw [hdigits] at h
    obtain ⟨hfirst, hrest⟩ := List.forall_mem_cons.mp h
    exact ((Printable.cons (by decide) hrest).cons hfirst).append hexponent
  · exact h.append hexponent

theorem printable_write (n : Number) : Printable n.write.toList := by
  cases n with
  | int i =>
    have hsign : Printable (Number.signChars (decide (i < 0))) := by
      cases decide (i < 0) <;> exact printable_of_all rfl
    rw [Number.write, Number.toList_toString_int, List.append_nil]
    exact hsign.append (printable_toDigits _)
  | float x =>
    rw [Number.write, Decimal.write, String.toList_ofList]
    refine Printable.append ?_ ?_
    · split <;> exact printable_of_all rfl
    · split
      · exact printable_of_all rfl
      · dsimp only
        split
        · exact printable_positional _ (printable_shortest x)
        · exact printable_scientific (printable_shortest x)

theorem printable_compactItems {items : List Json} (h : ∀ v ∈ items, Printable v.compactChars) :
    Printable (compactItems items) := by
  induction items with
  | nil => simp [compactItems, Printable]
  | cons item rest ih =>
    obtain ⟨hitem, hrest⟩ := List.forall_mem_cons.mp h
    cases rest with
    | nil => exact hitem
    | cons second rest =>
      rw [compactItems]
      · exact hitem.append ((ih hrest).cons (by decide))
      · simp

theorem printable_compactFields {fields : List (String × Json)}
    (h : ∀ field ∈ fields, Printable field.2.compactChars) : Printable (compactFields fields) := by
  induction fields with
  | nil => simp [compactFields, Printable]
  | cons field rest ih =>
    obtain ⟨key, value⟩ := field
    obtain ⟨hvalue, hrest⟩ := List.forall_mem_cons.mp h
    have hkey := printable_writeString key
    cases rest with
    | nil =>
      rw [compactFields]
      exact hkey.append (hvalue.cons (by decide))
    | cons second rest =>
      rw [compactFields]
      · exact (hkey.append (hvalue.cons (by decide))).append ((ih hrest).cons (by decide))
      · simp

mutual

theorem printable_compactChars : ∀ v : Json, Printable v.compactChars
  | .null => printable_of_all rfl
  | .bool true => printable_of_all rfl
  | .bool false => printable_of_all rfl
  | .number n => printable_write n
  | .string s => printable_writeString s
  | .array items =>
    have hclose : Printable [']'] := printable_of_all rfl
    ((printable_compactItems (printable_items items)).append hclose).cons (by decide)
  | .object fields =>
    have hclose : Printable ['}'] := printable_of_all rfl
    ((printable_compactFields (printable_fields fields)).append hclose).cons (by decide)

theorem printable_items : ∀ items : List Json, ∀ v ∈ items, Printable v.compactChars
  | [] => by simp
  | item :: rest =>
    List.forall_mem_cons.mpr ⟨printable_compactChars item, printable_items rest⟩

theorem printable_fields : ∀ fields : List (String × Json),
    ∀ field ∈ fields, Printable field.2.compactChars
  | [] => by simp
  | (_, value) :: rest =>
    List.forall_mem_cons.mpr ⟨printable_compactChars value, printable_fields rest⟩

end

/-- A line that begins and ends with a brace and holds no controls. -/
structure IsBraced (line : List Char) : Prop where
  printable : Printable line
  start : line.head? = some '{'
  finish : line.getLast? = some '}'

theorem isBraced_compactChars (fields : List (String × Json)) :
    IsBraced (Json.object fields).compactChars := by
  refine ⟨printable_compactChars _, rfl, ?_⟩
  rw [compactChars, List.getLast?_append, List.getLast?_singleton, Option.some_or]

namespace IsBraced

variable {line : List Char}

theorem feed_not_mem (h : IsBraced line) : '\n' ∉ line := h.printable.feed_not_mem

theorem dropReturn (h : IsBraced line) : Text.dropReturn line = line := h.printable.dropReturn

theorem trim (h : IsBraced line) : Text.trim line = line := by
  have hstart : Text.trimStart line = line := by
    obtain ⟨rest, rfl⟩ : ∃ rest, line = '{' :: rest := List.head?_eq_some_iff.mp h.start
    rfl
  rw [Text.trim, hstart]
  exact Text.dropEndWhile_of_getLast?_eq h.finish rfl

theorem not_blank (h : IsBraced line) : line.all Text.isBlank = false := by
  obtain ⟨rest, rfl⟩ : ∃ rest, line = '{' :: rest := List.head?_eq_some_iff.mp h.start
  rfl

end IsBraced

/-! ### Fields that may be missing -/

/-- The fields that are there, under their names. -/
def present (parts : List (String × Option Json)) : List (String × Json) :=
  parts.flatMap fun part => fieldIf part.1 part.2

theorem map_fst_present_sublist (parts : List (String × Option Json)) :
    ((present parts).map Prod.fst).Sublist (parts.map Prod.fst) := by
  induction parts with
  | nil => exact List.Sublist.slnil
  | cons part rest ih =>
    obtain ⟨key, value⟩ := part
    cases value with
    | none => exact ih.cons key
    | some v => exact ih.cons_cons key

theorem lookup_present {parts : List (String × Option Json)}
    (hkeys : (parts.map Prod.fst).Nodup) (key : String) :
    (present parts).lookup key = (parts.lookup key).join := by
  induction parts with
  | nil => rfl
  | cons part rest ih =>
    obtain ⟨k, value⟩ := part
    obtain ⟨hnew, hrest⟩ := List.nodup_cons.mp hkeys
    rw [lookup_cons]
    cases value with
    | some v =>
      have hpresent : present ((k, some v) :: rest) = (k, v) :: present rest := rfl
      rw [hpresent, lookup_cons, ih hrest]
      split <;> rfl
    | none =>
      have hpresent : present ((k, none) :: rest) = present rest := rfl
      rw [hpresent, ih hrest]
      by_cases hk : key = k
      · have hmissing : rest.lookup key = none := by
          rw [List.lookup_eq_none_iff]
          intro field hfield
          rw [bne_iff_ne, hk]
          intro heq
          have hmem : field.1 ∈ rest.map Prod.fst := List.mem_map_of_mem hfield
          exact hnew (heq ▸ hmem)
        rw [hmissing, if_pos hk]
        rfl
      · rw [if_neg hk]

theorem lookup_map {α β : Type} (f : α → β) (fields : List (String × α)) (key : String) :
    (fields.map fun field => (field.1, f field.2)).lookup key = (fields.lookup key).map f := by
  induction fields with
  | nil => rfl
  | cons field rest ih =>
    obtain ⟨k, v⟩ := field
    rw [List.map_cons, lookup_cons, lookup_cons, ih]
    split <;> rfl

variable {parts : List (String × Option Json)}

/-- The object of the fields that are there, as it is read back from its text. -/
theorem reread_normal_present (parts : List (String × Option Json)) :
    (object (present parts)).reread.normal =
      object (sortedFields ((present parts).map fun field => (field.1, field.2.reread.normal))) := by
  rw [reread, normal, rereadFields_eq, normalFields_eq, List.map_map, sorted_eq]
  rfl

/-- Every field is read back where it was. -/
theorem get?_reread_normal (hkeys : (parts.map Prod.fst).Nodup) (key : String) :
    (object (present parts)).reread.normal.get? key =
      (parts.lookup key).join.map fun v => v.reread.normal := by
  have hfields : ((present parts).map Prod.fst).Nodup :=
    (map_fst_present_sublist parts).nodup hkeys
  have hread : (((present parts).map fun field =>
      (field.1, field.2.reread.normal)).map Prod.fst).Nodup := by
    rwa [List.map_map]
  rw [reread_normal_present, get?, lookup_sortedFields_of_nodup hread,
    lookup_map (fun v : Json => v.reread.normal), lookup_present hkeys]

theorem field?_singleton {docs : List (String × Document)} (hkeys : (docs.map Prod.fst).Nodup)
    (key : String) : Decode.field? [key] docs = some (docs.lookup key) := by
  have hfilter : docs.filter (fun field => [key].contains field.1) =
      ((docs.lookup key).map fun doc => (key, doc)).toList := by
    induction docs with
    | nil => rfl
    | cons field rest ih =>
      obtain ⟨k, doc⟩ := field
      obtain ⟨hnew, hrest⟩ := List.nodup_cons.mp hkeys
      rw [lookup_cons]
      by_cases hk : key = k
      · subst hk
        have hothers : rest.filter (fun field => [key].contains field.1) = [] := by
          rw [List.filter_eq_nil_iff]
          intro field hfield hsame
          rw [List.contains_iff_mem, List.mem_singleton] at hsame
          have hmem : field.1 ∈ rest.map Prod.fst := List.mem_map_of_mem hfield
          exact hnew (hsame ▸ hmem)
        rw [List.filter_cons_of_pos (by simp), hothers, if_pos rfl]
        rfl
      · rw [List.filter_cons_of_neg (by simp [Ne.symm hk]), ih hrest, if_neg hk]
  rw [Decode.field?, hfilter]
  cases docs.lookup key <;> rfl

theorem lookup_of_field? {docs : List (String × Document)} {key : String}
    {found : Option Document} (h : Decode.field? [key] docs = some found) :
    found = docs.lookup key := by
  have hfirst : docs.lookup key =
      (docs.filter fun field => [key].contains field.1).head?.map Prod.snd := by
    clear h
    induction docs with
    | nil => rfl
    | cons field rest ih =>
      obtain ⟨k, doc⟩ := field
      rw [lookup_cons]
      by_cases hk : key = k
      · simp [hk]
      · simp [hk, Ne.symm hk, ih]
  unfold Decode.field? at h
  rw [hfirst]
  split at h
  · rename_i hnone
    rw [hnone]
    exact (Option.some.inj h).symm
  · rename_i hone
    rw [hone]
    exact (Option.some.inj h).symm
  · cases h

theorem maybe_some {α : Type} (read : Document → Option α) {doc : Document} (h : doc ≠ .null) :
    Decode.maybe read (some doc) = (read doc).map some := by
  cases doc with
  | null => exact absurd rfl h
  | _ => rfl

/-- A record is read back with every field in its place. -/
theorem record_ofJson (hkeys : (parts.map Prod.fst).Nodup) :
    Decode.record (parts.map fun part => [part.1])
        (.ofJson (object (present parts)).reread.normal) =
      some (parts.map fun part => part.2.map fun v => .ofJson v.reread.normal) := by
  rw [reread_normal_present, Document.ofJson, Document.ofFields_eq, Decode.record, List.mapM_map]
  generalize hread : sortedFields ((present parts).map fun field =>
    (field.1, field.2.reread.normal)) = read
  have hdocs : ((read.map fun field => (field.1, Document.ofJson field.2)).map
      Prod.fst).Nodup := by
    rw [List.map_map, ← hread]
    exact nodup_sortedFields _
  have heach : ((fun aliases => Decode.field? aliases
        (read.map fun field => (field.1, Document.ofJson field.2))) ∘
        fun part : String × Option Json => [part.1]) =
      fun part => pure ((read.lookup part.1).map Document.ofJson) := by
    funext part
    rw [Function.comp_apply, field?_singleton hdocs, lookup_map]
    rfl
  rw [heach, List.mapM_pure]
  apply congrArg some
  apply List.map_congr_left
  intro part hpart
  have hpresent := get?_reread_normal hkeys part.1
  rw [reread_normal_present, hread, get?] at hpresent
  rw [hpresent, (lookup_eq_some_iff_mem hkeys).mpr hpart, Option.join_some, Option.map_map]
  rfl

/-- Of a record that is read each field is the one that is found by its name. -/
theorem record_object {docs : List (String × Document)} {names : List String}
    {found : List (Option Document)}
    (h : Decode.record (names.map fun name => [name]) (.object docs) = some found) :
    found = names.map fun name => docs.lookup name := by
  rw [Decode.record, List.mapM_map] at h
  induction names generalizing found with
  | nil =>
    cases h
    rfl
  | cons name rest ih =>
    rw [List.mapM_cons] at h
    obtain ⟨first, hfirst, h⟩ := Option.bind_eq_some_iff.mp h
    obtain ⟨others, hothers, h⟩ := Option.bind_eq_some_iff.mp h
    cases h
    rw [List.map_cons, ← ih hothers, ← lookup_of_field? hfirst]

end LedgerConformance.Json
