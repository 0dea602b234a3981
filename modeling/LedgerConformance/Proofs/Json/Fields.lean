import LedgerConformance.Json.Decode
import Mathlib.Data.List.Induction
import Mathlib.Data.List.Nodup

/-!
Fields of sorted objects and entries of maps. Sorting puts each key once and in
order, a look up finds the last of the fields with a key, and so sorting fields
with different keys changes their order and nothing else.
-/

namespace LedgerConformance.Json

variable {α : Type}

theorem lookup_cons (key k : String) (v : α) (rest : List (String × α)) :
    ((k, v) :: rest).lookup key = if key = k then some v else rest.lookup key := by
  by_cases h : key = k
  · simp [h]
  · rw [List.lookup_cons, beq_eq_false_iff_ne.mpr h, if_neg h]

/-- In fields with different keys, a look up finds every field. -/
theorem lookup_eq_some_iff_mem {fields : List (String × α)}
    (hkeys : (fields.map Prod.fst).Nodup) {key : String} {v : α} :
    fields.lookup key = some v ↔ (key, v) ∈ fields := by
  induction fields with
  | nil => simp
  | cons field rest ih =>
    obtain ⟨k, w⟩ := field
    obtain ⟨hnew, hrest⟩ := List.nodup_cons.mp hkeys
    rw [lookup_cons, List.mem_cons]
    by_cases hk : key = k
    · subst hk
      have habsent : (key, v) ∉ rest := fun hmem => hnew (List.mem_map.mpr ⟨_, hmem, rfl⟩)
      simp [habsent, eq_comm]
    · simp [ih hrest, hk]

/-- A look up in such fields does not depend on their order. -/
theorem lookup_perm {fields reordered : List (String × α)}
    (hkeys : (fields.map Prod.fst).Nodup) (order : reordered.Perm fields) (key : String) :
    reordered.lookup key = fields.lookup key := by
  have hreordered : (reordered.map Prod.fst).Nodup := (order.map Prod.fst).nodup_iff.mpr hkeys
  apply Option.ext
  intro v
  rw [lookup_eq_some_iff_mem hreordered, lookup_eq_some_iff_mem hkeys, order.mem_iff]

theorem lookup_insertField (k key : String) (v : Json) (fields : List (String × Json)) :
    (insertField key v fields).lookup k = if k = key then some v else fields.lookup k := by
  induction fields with
  | nil => rw [insertField, lookup_cons]
  | cons field rest ih =>
    obtain ⟨first, w⟩ := field
    unfold insertField
    by_cases hlt : key < first
    · rw [if_pos hlt, lookup_cons]
    · by_cases heq : key = first
      · subst heq
        by_cases h : k = key <;> simp [lookup_cons, h]
      · by_cases hk : k = first
        · subst hk
          simp [hlt, heq, Ne.symm heq]
        · simp [hlt, heq, lookup_cons, hk, ih]

/-- A map as its entries, with the keys in order and each key once. -/
def Ascending {α : Type} (entries : List (String × α)) : Prop :=
  entries.Pairwise fun first second => first.1 < second.1

instance {α : Type} (entries : List (String × α)) : Decidable (Ascending entries) :=
  inferInstanceAs (Decidable (entries.Pairwise fun first second => first.1 < second.1))

section Maps

variable {key : String} {a : α} {done m : List (String × α)}

theorem Ascending.nodup (h : Ascending m) : (m.map Prod.fst).Nodup := by
  rw [List.Nodup, List.pairwise_map]
  refine h.imp ?_
  intro first second hlt heq
  exact String.lt_irrefl _ (heq ▸ hlt)

/-- There is one order for the entries of a map. -/
theorem Ascending.eq_of_perm {m' : List (String × α)} (h : Ascending m) (h' : Ascending m')
    (hperm : m.Perm m') : m = m' := by
  refine hperm.eq_of_pairwise ?_ h h'
  intro first second _ _ hlt hgt
  exact absurd hgt (String.lt_asymm hlt)

theorem mem_insertEntry {entry : String × α} (h : entry ∈ Decode.insertEntry key a done) :
    entry = (key, a) ∨ entry ∈ done := by
  induction done with
  | nil => exact Or.inl (List.mem_singleton.mp h)
  | cons first rest ih =>
    unfold Decode.insertEntry at h
    split at h
    · exact List.mem_cons.mp h
    · split at h
      · rcases List.mem_cons.mp h with hfirst | hrest
        · exact Or.inl hfirst
        · exact Or.inr (List.mem_cons_of_mem first hrest)
      · rcases List.mem_cons.mp h with hfirst | hrest
        · exact Or.inr (hfirst ▸ List.mem_cons_self)
        · rcases ih hrest with hnew | hrest
          · exact Or.inl hnew
          · exact Or.inr (List.mem_cons_of_mem first hrest)

theorem Ascending.insertEntry (h : Ascending done) :
    Ascending (Decode.insertEntry key a done) := by
  induction done with
  | nil => exact List.pairwise_singleton _ _
  | cons first rest ih =>
    obtain ⟨k, b⟩ := first
    obtain ⟨hfirst, hrest⟩ := List.pairwise_cons.mp h
    unfold Decode.insertEntry
    by_cases hlt : key < k
    · rw [if_pos hlt]
      refine List.pairwise_cons.mpr ⟨?_, h⟩
      intro other hother
      rcases List.mem_cons.mp hother with rfl | hlater
      · exact hlt
      · exact String.lt_trans hlt (hfirst other hlater)
    · rw [if_neg hlt]
      by_cases heq : key = k
      · subst heq
        rw [if_pos (beq_self_eq_true key)]
        exact List.pairwise_cons.mpr ⟨hfirst, hrest⟩
      · have hgt : k < key := Std.lt_of_le_of_ne (String.not_lt.mp hlt) (Ne.symm heq)
        rw [if_neg (by rwa [beq_iff_eq])]
        refine List.pairwise_cons.mpr ⟨?_, ih hrest⟩
        intro other hother
        rcases mem_insertEntry hother with rfl | hlater
        · exact hgt
        · exact hfirst other hlater

end Maps

theorem insertField_eq (key : String) (v : Json) (fields : List (String × Json)) :
    insertField key v fields = Decode.insertEntry key v fields := by
  induction fields with
  | nil => rfl
  | cons field rest ih => rw [insertField, Decode.insertEntry, ih]

theorem pairwise_insertField {key : String} {v : Json} {fields : List (String × Json)}
    (h : (fields.map Prod.fst).Pairwise (· < ·)) :
    ((insertField key v fields).map Prod.fst).Pairwise (· < ·) := by
  rw [List.pairwise_map] at h ⊢
  rw [insertField_eq]
  exact Ascending.insertEntry h

theorem sorted_eq (fields : List (String × Json)) :
    sorted fields = object (sortedFields fields) := rfl

theorem lookup_foldl_insertField (k : String) (fields done : List (String × Json)) :
    (fields.foldl (fun done field => insertField field.1 field.2 done) done).lookup k =
      (fields.reverse.lookup k).or (done.lookup k) := by
  induction fields generalizing done with
  | nil => rfl
  | cons field rest ih =>
    obtain ⟨key, v⟩ := field
    rw [List.foldl_cons, ih, lookup_insertField, List.reverse_cons, List.lookup_append,
      Option.or_assoc]
    by_cases h : k = key <;> simp [lookup_cons, h]

/-- Of fields with one key the last counts. -/
theorem lookup_sortedFields (k : String) (fields : List (String × Json)) :
    (sortedFields fields).lookup k = fields.reverse.lookup k := by
  rw [sortedFields, lookup_foldl_insertField, List.lookup_nil, Option.or_none]

theorem pairwise_foldl_insertField {fields done : List (String × Json)}
    (h : (done.map Prod.fst).Pairwise (· < ·)) :
    ((fields.foldl (fun done field => insertField field.1 field.2 done) done).map
      Prod.fst).Pairwise (· < ·) := by
  induction fields generalizing done with
  | nil => exact h
  | cons field rest ih => exact ih (pairwise_insertField h)

theorem pairwise_sortedFields (fields : List (String × Json)) :
    ((sortedFields fields).map Prod.fst).Pairwise (· < ·) :=
  pairwise_foldl_insertField List.Pairwise.nil

theorem nodup_sortedFields (fields : List (String × Json)) :
    ((sortedFields fields).map Prod.fst).Nodup := by
  refine (pairwise_sortedFields fields).imp ?_
  intro a b hlt heq
  exact String.lt_irrefl a (heq ▸ hlt)

theorem lookup_sortedFields_of_nodup {fields : List (String × Json)}
    (hkeys : (fields.map Prod.fst).Nodup) (k : String) :
    (sortedFields fields).lookup k = fields.lookup k := by
  have hreverse : (fields.reverse.map Prod.fst).Nodup := by
    rw [List.map_reverse]
    exact List.nodup_reverse.mpr hkeys
  rw [lookup_sortedFields]
  apply Option.ext
  intro v
  rw [lookup_eq_some_iff_mem hreverse, lookup_eq_some_iff_mem hkeys, List.mem_reverse]

theorem mem_of_mem_insertField {key : String} {v : Json} {field : String × Json}
    {fields : List (String × Json)} (h : field ∈ insertField key v fields) :
    field = (key, v) ∨ field ∈ fields := mem_insertEntry (insertField_eq key v fields ▸ h)

/-- Sorting invents no field. -/
theorem mem_of_mem_sortedFields {field : String × Json} {fields : List (String × Json)}
    (h : field ∈ sortedFields fields) : field ∈ fields := by
  have hfold : ∀ done : List (String × Json),
      field ∈ fields.foldl (fun done field => insertField field.1 field.2 done) done →
        field ∈ fields ∨ field ∈ done := by
    clear h
    induction fields with
    | nil => exact fun _ hdone => Or.inr hdone
    | cons first rest ih =>
      intro done hfield
      rcases ih _ hfield with hrest | hdone
      · exact Or.inl (List.mem_cons_of_mem first hrest)
      · rcases mem_of_mem_insertField hdone with hnew | hdone
        · exact Or.inl (hnew ▸ List.mem_cons_self)
        · exact Or.inr hdone
  rcases hfold [] h with hfields | hnil
  · exact hfields
  · cases hnil

theorem insertField_map (f : Json → Json) (key : String) (v : Json)
    (fields : List (String × Json)) :
    insertField key (f v) (fields.map fun field => (field.1, f field.2)) =
      (insertField key v fields).map fun field => (field.1, f field.2) := by
  induction fields with
  | nil => rfl
  | cons field rest ih =>
    simp only [List.map_cons, insertField]
    split
    · rfl
    · split
      · rfl
      · rw [ih, List.map_cons]

/-- The order of fields does not depend on their values. -/
theorem sortedFields_map (f : Json → Json) (fields : List (String × Json)) :
    sortedFields (fields.map fun field => (field.1, f field.2)) =
      (sortedFields fields).map fun field => (field.1, f field.2) := by
  have hfold : ∀ done : List (String × Json),
      (fields.map fun field => (field.1, f field.2)).foldl
          (fun done field => insertField field.1 field.2 done)
          (done.map fun field => (field.1, f field.2)) =
        (fields.foldl (fun done field => insertField field.1 field.2 done) done).map
          fun field => (field.1, f field.2) := by
    induction fields with
    | nil => exact fun _ => rfl
    | cons field rest ih =>
      intro done
      rw [List.map_cons, List.foldl_cons, List.foldl_cons, insertField_map, ih]
  exact hfold []

theorem insertField_of_forall_lt {key : String} {v : Json} {fields : List (String × Json)}
    (h : ∀ k ∈ fields.map Prod.fst, k < key) :
    insertField key v fields = fields ++ [(key, v)] := by
  induction fields with
  | nil => rfl
  | cons field rest ih =>
    obtain ⟨k, w⟩ := field
    obtain ⟨hk, hrest⟩ := List.forall_mem_cons.mp h
    have hnot : ¬ key < k := String.lt_asymm hk
    have hne : ¬ (key == k) = true := by
      rw [beq_iff_eq]
      rintro rfl
      exact String.lt_irrefl key hk
    rw [insertField, if_neg hnot, if_neg hne, ih hrest, List.cons_append]

/-- Fields that are in order stay so. -/
theorem sortedFields_of_pairwise {fields : List (String × Json)}
    (h : (fields.map Prod.fst).Pairwise (· < ·)) : sortedFields fields = fields := by
  induction fields using List.reverseRecOn with
  | nil => rfl
  | append_singleton fields field ih =>
    rw [List.map_append, List.pairwise_append] at h
    obtain ⟨hfields, -, hlast⟩ := h
    have hlt : ∀ k ∈ fields.map Prod.fst, k < field.1 :=
      fun k hk => hlast k hk field.1 (List.mem_singleton.mpr rfl)
    have hsorted := ih hfields
    rw [sortedFields] at hsorted ⊢
    rw [List.foldl_append, hsorted, List.foldl_cons, List.foldl_nil,
      insertField_of_forall_lt hlt]

theorem sortedFields_sortedFields (fields : List (String × Json)) :
    sortedFields (sortedFields fields) = sortedFields fields :=
  sortedFields_of_pairwise (pairwise_sortedFields fields)

/-- Sorting fields with different keys only changes their order. -/
theorem sortedFields_perm {fields : List (String × Json)}
    (hkeys : (fields.map Prod.fst).Nodup) : (sortedFields fields).Perm fields := by
  have hsorted : (sortedFields fields).Nodup := List.Nodup.of_map Prod.fst (nodup_sortedFields fields)
  have hfields : fields.Nodup := List.Nodup.of_map Prod.fst hkeys
  rw [List.perm_ext_iff_of_nodup hsorted hfields]
  intro field
  obtain ⟨k, v⟩ := field
  rw [← lookup_eq_some_iff_mem (nodup_sortedFields fields), ← lookup_eq_some_iff_mem hkeys,
    lookup_sortedFields_of_nodup hkeys]

end LedgerConformance.Json
