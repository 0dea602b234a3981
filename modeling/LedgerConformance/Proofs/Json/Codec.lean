import LedgerConformance.Proofs.Json.Records
import Mathlib.Data.List.Forall2
import Mathlib.Data.List.Perm.Basic
import Mathlib.Data.Option.Defs

/-!
Readers of what is written. A document says a value when it is the value with the
fields of each object in some order. A reader takes all documents that say what is
written of a value for that value, and such readers of parts make readers of lists,
of maps and of records.
-/

namespace LedgerConformance.Json

/-- The document is the value, with the fields of each object in some order. -/
inductive Document.Says : Document → Json → Prop
  | null : Says .null .null
  | bool (b : Bool) : Says (.bool b) (.bool b)
  | number (n : Number) : Says (.number n) (.number n)
  | string (s : String) : Says (.string s) (.string s)
  | array {docs : List Document} {items : List Json} (items_said : List.Forall₂ Says docs items) :
    Says (.array docs) (.array items)
  | object {docs : List (String × Document)} {reordered fields : List (String × Json)}
    (order : reordered.Perm fields) (keys : docs.map Prod.fst = reordered.map Prod.fst)
    (values_said : List.Forall₂ Says (docs.map Prod.snd) (reordered.map Prod.snd)) :
    Says (.object docs) (.object fields)

namespace Document

mutual

/-- A value seen as a document is said by it. -/
theorem says_ofJson : ∀ v : Json, (ofJson v).Says v
  | .null => .null
  | .bool b => .bool b
  | .number n => .number n
  | .string s => .string s
  | .array items => .array (says_ofItems items)
  | .object fields => .object (List.Perm.refl fields) (by simp [ofFields_eq]) (says_ofFields fields)

theorem says_ofItems : ∀ items : List Json, List.Forall₂ Says (ofItems items) items
  | [] => .nil
  | item :: rest => .cons (says_ofJson item) (says_ofItems rest)

theorem says_ofFields : ∀ fields : List (String × Json),
    List.Forall₂ Says ((ofFields fields).map Prod.snd) (fields.map Prod.snd)
  | [] => .nil
  | (_, value) :: rest => .cons (says_ofJson value) (says_ofFields rest)

end

/-- The fields of an object are said one by one, each under its key. -/
theorem forall₂_fields {docs : List (String × Document)} {fields : List (String × Json)}
    (keys : docs.map Prod.fst = fields.map Prod.fst)
    (values_said : List.Forall₂ Says (docs.map Prod.snd) (fields.map Prod.snd)) :
    List.Forall₂ (fun doc field => doc.1 = field.1 ∧ doc.2.Says field.2) docs fields := by
  rw [List.forall₂_map_left_iff, List.forall₂_map_right_iff] at values_said
  rw [← List.forall₂_eq_eq_eq, List.forall₂_map_left_iff, List.forall₂_map_right_iff] at keys
  induction values_said with
  | nil => exact .nil
  | cons hvalue _ ih =>
    cases keys with
    | cons hkey hkeys => exact .cons ⟨hkey, hvalue⟩ (ih hkeys)

/-- What stands under a key says the value of that key. -/
theorem rel_lookup {docs : List (String × Document)} {fields : List (String × Json)}
    (h : List.Forall₂ (fun doc field => doc.1 = field.1 ∧ doc.2.Says field.2) docs fields)
    (key : String) : Option.Rel Says (docs.lookup key) (fields.lookup key) := by
  induction h with
  | nil => exact .none
  | @cons doc field _ _ hfirst _ ih =>
    obtain ⟨k, doc⟩ := doc
    obtain ⟨k', v⟩ := field
    obtain ⟨rfl, hv⟩ := hfirst
    rw [lookup_cons, lookup_cons]
    split
    · exact .some hv
    · exact ih

end Document

/-! ### Maps -/

section Maps

variable {α : Type} {key : String} {a : α} {done m : List (String × α)}

theorem insertEntry_perm (hnew : key ∉ done.map Prod.fst) :
    (Decode.insertEntry key a done).Perm ((key, a) :: done) := by
  induction done with
  | nil => exact List.Perm.refl _
  | cons first rest ih =>
    obtain ⟨k, b⟩ := first
    obtain ⟨hne, hrest⟩ := not_or.mp fun h => hnew (List.mem_cons.mpr h)
    unfold Decode.insertEntry
    rw [if_neg (show ¬ (key == k) = true by rwa [beq_iff_eq])]
    split
    · exact List.Perm.refl _
    · exact ((ih hrest).cons (k, b)).trans (List.Perm.swap _ _ _)

variable {read : Document → Option α} {docs : List (String × Document)}

theorem ascending_of_entries (hdone : Ascending done) (h : Decode.entries read done docs = some m) :
    Ascending m := by
  induction docs generalizing done with
  | nil =>
    cases h
    exact hdone
  | cons field docs ih =>
    obtain ⟨key, doc⟩ := field
    unfold Decode.entries at h
    split at h
    · exact ih hdone.insertEntry h
    · cases h

theorem mem_of_entries (h : Decode.entries read done docs = some m) {entry : String × α}
    (hentry : entry ∈ m) : entry ∈ done ∨ ∃ doc, read doc = some entry.2 := by
  induction docs generalizing done with
  | nil =>
    cases h
    exact Or.inl hentry
  | cons field docs ih =>
    obtain ⟨key, doc⟩ := field
    unfold Decode.entries at h
    split at h
    · rename_i a ha
      rcases ih h with hinserted | hread
      · rcases mem_insertEntry hinserted with rfl | hdone
        · exact Or.inr ⟨doc, ha⟩
        · exact Or.inl hdone
      · exact Or.inr hread
    · cases h

/-- Entries with different keys are all kept. -/
theorem entries_perm {entries : List (String × α)} (hkeys : ((done ++ entries).map Prod.fst).Nodup)
    (hread : List.Forall₂ (fun field entry => field.1 = entry.1 ∧ read field.2 = some entry.2)
      docs entries) :
    ∃ m, Decode.entries read done docs = some m ∧ m.Perm (done ++ entries) := by
  induction hread generalizing done with
  | nil => exact ⟨done, rfl, by rw [List.append_nil]⟩
  | @cons field entry docs entries hfirst _ ih =>
    obtain ⟨key, doc⟩ := field
    obtain ⟨k, a⟩ := entry
    obtain ⟨rfl, ha⟩ := hfirst
    have hnew : key ∉ done.map Prod.fst := by
      rw [List.map_append, List.nodup_append] at hkeys
      intro hmem
      exact hkeys.2.2 key hmem key List.mem_cons_self rfl
    have hinserted : (Decode.insertEntry key a done ++ entries).Perm
        (done ++ (key, a) :: entries) :=
      ((insertEntry_perm hnew).append_right entries).trans List.perm_middle.symm
    obtain ⟨m, hm, hperm⟩ := ih ((hinserted.map Prod.fst).nodup_iff.mpr hkeys)
    refine ⟨m, ?_, hperm.trans hinserted⟩
    unfold Decode.entries
    dsimp only at ha
    rw [ha]
    exact hm

/-- A map that is read has its entries in order, each with a value that was read. -/
theorem ordered_of_map {doc : Document} (h : Decode.map read doc = some m) :
    Ascending m ∧ ∀ entry ∈ m, ∃ doc, read doc = some entry.2 := by
  unfold Decode.map at h
  split at h
  · refine ⟨ascending_of_entries List.Pairwise.nil h, ?_⟩
    intro entry hentry
    rcases mem_of_entries h hentry with hnone | hread
    · cases hnone
    · exact hread
  · cases h

end Maps

/-! ### Readers of values -/

theorem forall₂_comp {α β γ : Type} {R : α → β → Prop} {S : α → γ → Prop} {as : List α}
    {bs : List β} {cs : List γ} (h : List.Forall₂ R as bs)
    (h' : List.Forall₂ (fun b c => ∀ a, R a b → S a c) bs cs) : List.Forall₂ S as cs := by
  induction h generalizing cs with
  | nil =>
    cases h'
    exact .nil
  | cons hfirst _ ih =>
    cases h' with
    | cons hnext hrest => exact .cons (hnext _ hfirst) (ih hrest)

section Readers

variable {α : Type} {read : Document → Option α} {write : α → Json}

/-- The reader takes every document that says the value for `a`. -/
def Reads (read : Document → Option α) (v : Json) (a : α) : Prop :=
  ∀ doc : Document, doc.Says v → read doc = some a

theorem reads_string (s : String) : Reads Decode.string (.string s) s := by
  intro doc hsaid
  cases hsaid
  rfl

theorem reads_bool (b : Bool) : Reads Decode.bool (.bool b) b := by
  intro doc hsaid
  cases hsaid
  rfl

theorem reads_nat (n : Nat) : Reads Decode.nat (.nat n) n := by
  intro doc hsaid
  change doc.Says (.number (.int n)) at hsaid
  cases hsaid
  rw [Decode.nat, Number.toNat?, if_pos (Int.natCast_nonneg n), Int.toNat_natCast]

theorem reads_word {find : String → Option α} {s : String} {a : α} (h : find s = some a) :
    Reads (Decode.word find) (.string s) a := by
  intro doc hsaid
  cases hsaid
  exact h

theorem reads_list {as : List α} (h : ∀ a ∈ as, Reads read (write a) a) :
    Reads (Decode.list read) (.array (as.map write)) as := by
  intro doc hsaid
  cases hsaid with
  | @array docs _ hitems =>
    rw [Decode.list]
    induction as generalizing docs with
    | nil =>
      cases hitems
      rfl
    | cons a as ih =>
      cases hitems with
      | @cons doc _ docs _ hdoc hdocs =>
        obtain ⟨ha, has⟩ := List.forall_mem_cons.mp h
        rw [Decode.items, ha doc hdoc, ih has hdocs]

theorem reads_strings (items : List String) :
    Reads (Decode.list Decode.string) (.strings items) items :=
  reads_list fun s _ => reads_string s

theorem reads_map {m : List (String × α)} (hm : Ascending m)
    (h : ∀ entry ∈ m, Reads read (write entry.2) entry.2) :
    Reads (Decode.map read) (.object (m.map fun entry => (entry.1, write entry.2))) m := by
  intro doc hsaid
  cases hsaid with
  | @object docs reordered _ order hkeys hvalues =>
    have hwritten : List.Forall₂ (fun field entry => ∀ doc : String × Document,
          doc.1 = field.1 ∧ doc.2.Says field.2 → doc.1 = entry.1 ∧ read doc.2 = some entry.2)
        (m.map fun entry => (entry.1, write entry.2)) m := by
      rw [List.forall₂_map_left_iff, List.forall₂_same]
      exact fun entry hentry doc hdoc => ⟨hdoc.1, h entry hentry doc.2 hdoc.2⟩
    -- The entries in the order of the document; the reader puts them in their own.
    obtain ⟨entries, hentries, hperm⟩ := List.perm_comp_forall₂ order hwritten
    have hread := forall₂_comp (Document.forall₂_fields hkeys hvalues) hentries
    have hnodup : (([] ++ entries).map Prod.fst).Nodup :=
      (hperm.map Prod.fst).nodup_iff.mpr hm.nodup
    obtain ⟨found, hmap, hsame⟩ := entries_perm hnodup hread
    rw [Decode.map, hmap,
      (ascending_of_entries List.Pairwise.nil hmap).eq_of_perm hm (hsame.trans hperm)]

/-! ### Readers of fields -/

/-- The reader of a field takes every document that says its value, or the missing field,
for `a`. -/
def ReadsField (read : Option Document → Option α) (v : Option Json) (a : α) : Prop :=
  ∀ found : Option Document, Option.Rel Document.Says found v → read found = some a

variable {v : Json} {a default : α}

theorem readsField_required (h : Reads read v a) :
    ReadsField (Decode.required read) (some v) a := by
  intro found hfound
  cases hfound with
  | some hsaid => exact h _ hsaid

theorem readsField_withDefault (h : Reads read v a) :
    ReadsField (Decode.withDefault default read) (some v) a := by
  intro found hfound
  cases hfound with
  | some hsaid => exact h _ hsaid

theorem readsField_default (read : Document → Option α) (default : α) :
    ReadsField (Decode.withDefault default read) none default := by
  intro found hfound
  cases hfound
  rfl

theorem readsField_maybe {value : Option α}
    (h : ∀ a ∈ value, write a ≠ .null ∧ Reads read (write a) a) :
    ReadsField (Decode.maybe read) (value.map write) value := by
  intro found hfound
  cases value with
  | none =>
    cases hfound
    rfl
  | some a =>
    obtain ⟨hnull, hread⟩ := h a rfl
    cases hfound with
    | @some doc _ hsaid =>
      -- A null would be read as a missing field.
      have hdoc : doc ≠ .null := by
        rintro rfl
        generalize write a = v at hsaid hnull
        cases hsaid
        exact hnull rfl
      rw [maybe_some read hdoc, hread doc hsaid]
      rfl

/-- A list or map, which is left out when it is empty. -/
def unlessEmpty {β : Type} (items : List β) (v : Json) : Option Json :=
  if items.isEmpty then none else some v

theorem fieldIf_unlessEmpty {β : Type} (key : String) (items : List β) (v : Json) :
    fieldIf key (unlessEmpty items v) = if items.isEmpty then [] else [(key, v)] := by
  cases items <;> rfl

theorem unlessEmpty_of_ne_nil {β : Type} {items : List β} (h : items ≠ []) (v : Json) :
    unlessEmpty items v = some v := by
  rw [unlessEmpty, if_neg (by rwa [List.isEmpty_iff])]

theorem readsField_unlessEmpty {β : Type} {read : Document → Option (List β)} {items : List β}
    (h : Reads read v items) :
    ReadsField (Decode.withDefault [] read) (unlessEmpty items v) items := by
  cases items with
  | nil => exact readsField_default read []
  | cons first rest => exact readsField_withDefault h

/-- What a field with a default is read as is the default or was read. -/
theorem of_withDefault {p : α → Prop} {found : Option Document}
    (h : Decode.withDefault default read found = some a) (hdefault : p default)
    (hread : ∀ doc, read doc = some a → p a) : p a := by
  cases found with
  | none =>
    cases h
    exact hdefault
  | some doc => exact hread doc h

theorem readsField_text (s : Option String) :
    ReadsField (Decode.maybe Decode.string) (s.map .string) s :=
  readsField_maybe fun s _ => ⟨Json.noConfusion, reads_string s⟩

theorem readsField_nat (n : Option Nat) :
    ReadsField (Decode.maybe Decode.nat) (n.map .nat) n :=
  readsField_maybe fun n _ => ⟨Json.noConfusion, reads_nat n⟩

end Readers

/-! ### Readers of records -/

/-- Names of which no object has a field change nothing about a field. -/
theorem field?_cons {docs : List (String × Document)} (hkeys : (docs.map Prod.fst).Nodup)
    {key : String} {aliases : List String} (haliases : ∀ name ∈ aliases, name ∉ docs.map Prod.fst) :
    Decode.field? (key :: aliases) docs = some (docs.lookup key) := by
  rw [← field?_singleton hkeys, Decode.field?, Decode.field?]
  have hfilter : docs.filter (fun field => (key :: aliases).contains field.1) =
      docs.filter (fun field => [key].contains field.1) := by
    apply List.filter_congr
    intro field hfield
    have habsent : field.1 ∉ aliases :=
      fun hmem => haliases field.1 hmem (List.mem_map_of_mem hfield)
    simp [habsent]
  rw [hfilter]

theorem mapM_eq_some_map {α β : Type} {f : α → Option β} {g : α → β} {as : List α}
    (h : ∀ a ∈ as, f a = some (g a)) : as.mapM f = some (as.map g) := by
  induction as with
  | nil => rfl
  | cons a as ih =>
    obtain ⟨ha, has⟩ := List.forall_mem_cons.mp h
    rw [List.mapM_cons, ha, ih has]
    rfl

/-- The fields of a record are found where they were written, under their own names. -/
theorem record_of_says_aliases {parts : List (String × Option Json)} (aliases : String → List String)
    (hkeys : (parts.map Prod.fst).Nodup)
    (haliases : ∀ part ∈ parts, ∀ name ∈ aliases part.1, name ∉ parts.map Prod.fst)
    {doc : Document} (hsaid : doc.Says (.object (present parts))) :
    ∃ found : String → Option Document,
      Decode.record (parts.map fun part => part.1 :: aliases part.1) doc =
          some (parts.map fun part => found part.1) ∧
        ∀ part ∈ parts, Option.Rel Document.Says (found part.1) part.2 := by
  cases hsaid with
  | @object docs reordered _ order keys hvalues =>
    have hpresent : ((present parts).map Prod.fst).Nodup :=
      (map_fst_present_sublist parts).nodup hkeys
    have hperm : (docs.map Prod.fst).Perm ((present parts).map Prod.fst) :=
      keys ▸ order.map Prod.fst
    have hdocs : (docs.map Prod.fst).Nodup := hperm.nodup_iff.mpr hpresent
    refine ⟨fun key => docs.lookup key, ?_, ?_⟩
    · rw [Decode.record, List.mapM_map]
      apply mapM_eq_some_map
      intro part hpart
      apply field?_cons hdocs
      intro name hname hmem
      exact haliases part hpart name hname
        ((map_fst_present_sublist parts).subset (hperm.mem_iff.mp hmem))
    · intro part hpart
      have hlookup : (present parts).lookup part.1 = part.2 := by
        rw [lookup_present hkeys, (lookup_eq_some_iff_mem hkeys).mpr hpart, Option.join_some]
      have hrel := Document.rel_lookup (Document.forall₂_fields keys hvalues) part.1
      rwa [lookup_perm hpresent order, hlookup] at hrel

theorem record_of_says {parts : List (String × Option Json)} (hkeys : (parts.map Prod.fst).Nodup)
    {doc : Document} (hsaid : doc.Says (.object (present parts))) :
    ∃ found : String → Option Document,
      Decode.record (parts.map fun part => [part.1]) doc =
          some (parts.map fun part => found part.1) ∧
        ∀ part ∈ parts, Option.Rel Document.Says (found part.1) part.2 :=
  record_of_says_aliases (fun _ => []) hkeys (by simp) hsaid

/-! ### Round trips -/

/-- What is written of a value is read as that value, by whoever writes the fields in any
order; and what is read of any document at all can be written and read once more. -/
structure RoundTrips {α : Type} (read : Document → Option α) (write : α → Json)
    (Ordered : α → Prop) : Prop where
  read_write : ∀ a, Ordered a → ∀ doc : Document, doc.Says (write a) → read doc = some a
  read_again : ∀ (doc : Document) (a : α), read doc = some a →
    ∀ rewritten : Document, rewritten.Says (write a) → read rewritten = some a

theorem RoundTrips.of_reads {α : Type} {read : Document → Option α} {write : α → Json}
    {Ordered : α → Prop} (hreads : ∀ a, Ordered a → Reads read (write a) a)
    (hordered : ∀ doc a, read doc = some a → Ordered a) : RoundTrips read write Ordered where
  read_write := hreads
  read_again doc a h := hreads a (hordered doc a h)

end LedgerConformance.Json
