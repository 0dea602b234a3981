import LedgerConformance.Proofs.FileSystem.Files
import LedgerConformance.Proofs.FileSystem.Paths
import Mathlib.Data.Option.Basic

/-!
Trees whose directories list their entries in another order. Where every directory gives each
of its names once, the order cannot be told from what paths lead to: they lead to the same
files, and to directories that are in another order again.
-/

namespace LedgerConformance

namespace Node

/-- Every directory gives each name once, and each is one that an entry can have. -/
inductive WellNamed : Node → Prop
  | directory {entries : List (String × Node)} : (entries.map Prod.fst).Nodup →
    (∀ entry ∈ entries, Path.IsName entry.1) → (∀ entry ∈ entries, WellNamed entry.2) →
    WellNamed (directory entries)
  | leaf {node : Node} : node.isDirectory = false → WellNamed node

/-- The same tree, with the entries of every directory in any order. -/
inductive Reordered : Node → Node → Prop
  | directory {entries others : List (String × Node)} (below : String × Node → Node) :
    (∀ entry ∈ entries, Reordered entry.2 (below entry)) →
    others.Perm (entries.map fun entry => (entry.1, below entry)) →
    Reordered (directory entries) (directory others)
  | leaf {node : Node} : node.isDirectory = false → Reordered node node

/-! ### Names that lead somewhere -/

theorem find?_directory_cons {entries : List (String × Node)}
    (hnodup : (entries.map Prod.fst).Nodup) {name : String} {rest : List String} {node : Node} :
    (directory entries).find? (name :: rest) = some node ↔
      ∃ below, (name, below) ∈ entries ∧ below.find? rest = some node := by
  simp only [← Json.lookup_eq_some_iff_mem hnodup, find?]
  cases entries.lookup name <;> simp

theorem find?_leaf_cons {node : Node} (h : node.isDirectory = false) (name : String)
    (rest : List String) : node.find? (name :: rest) = none := by
  cases node with
  | directory => contradiction
  | _ => rfl

/-- What names lead to is well named, and so are they. -/
theorem WellNamed.find? {root node : Node} (h : root.WellNamed) {names : List String}
    (hfound : root.find? names = some node) :
    node.WellNamed ∧ ∀ name ∈ names, Path.IsName name := by
  induction h generalizing names with
  | @directory entries hnodup hnames hbelow ih =>
    cases names with
    | nil =>
      cases hfound
      exact ⟨.directory hnodup hnames hbelow, List.forall_mem_nil _⟩
    | cons name rest =>
      obtain ⟨below, hentry, hrest⟩ := (find?_directory_cons hnodup).mp hfound
      obtain ⟨hnode, hvalid⟩ := ih _ hentry hrest
      exact ⟨hnode, List.forall_mem_cons.mpr ⟨hnames _ hentry, hvalid⟩⟩
  | leaf hleaf =>
    cases names with
    | nil =>
      cases hfound
      exact ⟨.leaf hleaf, List.forall_mem_nil _⟩
    | cons name rest =>
      rw [find?_leaf_cons hleaf] at hfound
      cases hfound

/-! ### Another order -/

section Rel

variable {α β : Type} {R : α → β → Prop} {found : Option β}

theorem exists_of_rel_some {a : α} (h : Option.Rel R (some a) found) :
    ∃ b, found = some b ∧ R a b := by
  cases h with
  | some hab => exact ⟨_, rfl, hab⟩

theorem eq_none_of_rel (h : Option.Rel R none found) : found = none := by
  cases h
  rfl

theorem isSome_eq_of_rel {first : Option α} (h : Option.Rel R first found) :
    found.isSome = first.isSome := by
  cases h <;> rfl

end Rel

theorem rel_lookup_of_reordered {entries others : List (String × Node)}
    {below : String × Node → Node} (hnodup : (entries.map Prod.fst).Nodup)
    (hbelow : ∀ entry ∈ entries, Reordered entry.2 (below entry))
    (order : others.Perm (entries.map fun entry => (entry.1, below entry))) (name : String) :
    Option.Rel Reordered (entries.lookup name) (others.lookup name) := by
  have hkeys : ((entries.map fun entry => (entry.1, below entry)).map Prod.fst).Nodup := by
    rwa [List.map_map]
  rw [Json.lookup_perm hkeys order]
  clear hkeys hnodup order
  induction entries with
  | nil => exact .none
  | cons entry rest ih =>
    obtain ⟨hentry, hrest⟩ := List.forall_mem_cons.mp hbelow
    obtain ⟨key, node⟩ := entry
    rw [List.map_cons, Json.lookup_cons, Json.lookup_cons]
    split
    · exact .some hentry
    · exact ih hrest

/-- Names lead to the same in both orders, up to the order in what they lead to. -/
theorem Reordered.rel_find? {root other : Node} (h : root.Reordered other)
    (hnamed : root.WellNamed) (names : List String) :
    Option.Rel Reordered (root.find? names) (other.find? names) := by
  induction names generalizing root other with
  | nil => exact .some h
  | cons name rest ih =>
    cases h with
    | @directory entries others below hbelow order =>
      cases hnamed with
      | leaf hleaf => contradiction
      | directory hnodup _ hwell =>
        have hlookup := rel_lookup_of_reordered hnodup hbelow order name
        rw [Node.find?, Node.find?]
        cases hfirst : entries.lookup name with
        | none =>
          rw [hfirst] at hlookup
          rw [eq_none_of_rel hlookup]
          exact .none
        | some node =>
          rw [hfirst] at hlookup
          obtain ⟨other, hother, hnode⟩ := exists_of_rel_some hlookup
          rw [hother]
          exact ih hnode (hwell _ ((Json.lookup_eq_some_iff_mem hnodup).mp hfirst))
    | leaf hleaf =>
      rw [find?_leaf_cons hleaf]
      exact .none

end Node

namespace FileSystem

open Node (exists_of_rel_some eq_none_of_rel isSome_eq_of_rel)

variable {fs : FileSystem} {root : Node}

theorem step_reordered (hnamed : fs.root.WellNamed) (h : fs.root.Reordered root) :
    step root = step fs.root := by
  funext here segment
  have hfind := h.rel_find? hnamed here
  unfold step
  cases hfound : fs.root.find? here with
  | none =>
    rw [hfound] at hfind
    rw [eq_none_of_rel hfind]
  | some node =>
    rw [hfound] at hfind
    obtain ⟨other, hother, hnode⟩ := exists_of_rel_some hfind
    rw [hother]
    cases hnode with
    | leaf => rfl
    | directory below hbelow order =>
      obtain ⟨hnodup, -, -⟩ | hleaf := (hnamed.find? hfound).1
      · dsimp only
        rw [isSome_eq_of_rel (Node.rel_lookup_of_reordered hnodup hbelow order segment)]
      · contradiction

theorem locate_reordered (hnamed : fs.root.WellNamed) (h : fs.root.Reordered root)
    (path : String) : locate { fs with root } path = fs.locate path := by
  unfold locate
  rw [step_reordered hnamed h]
  rfl

theorem contains_reordered (hnamed : fs.root.WellNamed) (h : fs.root.Reordered root)
    (path : String) : contains { fs with root } path = fs.contains path := by
  unfold contains node
  rw [locate_reordered hnamed h]
  cases fs.locate path with
  | error => rfl
  | ok names =>
    have hfind := h.rel_find? hnamed names
    dsimp only [bind, Except.bind]
    cases hfound : fs.root.find? names with
    | none =>
      rw [hfound] at hfind
      rw [eq_none_of_rel hfind]
    | some node =>
      rw [hfound] at hfind
      obtain ⟨other, hother, -⟩ := exists_of_rel_some hfind
      rw [hother]
      rfl

theorem exists_names_of_node {path : String} {node : Node} (h : fs.node path = .ok node) :
    ∃ names, fs.locate path = .ok names ∧ fs.root.find? names = some node := by
  unfold FileSystem.node at h
  obtain ⟨names, hnames, h⟩ := exists_of_bind_eq_ok h
  split at h
  · rename_i found hfound
    cases h
    exact ⟨names, hnames, hfound⟩
  · cases h

theorem wellNamed_of_node (hnamed : fs.root.WellNamed) {path : String} {node : Node}
    (h : fs.node path = .ok node) : node.WellNamed := by
  obtain ⟨names, -, hfound⟩ := exists_names_of_node h
  exact (hnamed.find? hfound).1

/-- A path leads to the same in both orders, up to the order in what it leads to. -/
theorem exists_node_reordered (hnamed : fs.root.WellNamed) (h : fs.root.Reordered root)
    {path : String} {node : Node} (hnode : fs.node path = .ok node) :
    ∃ other, FileSystem.node { fs with root } path = .ok other ∧ node.Reordered other := by
  obtain ⟨names, hnames, hfound⟩ := exists_names_of_node hnode
  have hfind := h.rel_find? hnamed names
  rw [hfound] at hfind
  obtain ⟨other, hother, hreordered⟩ := exists_of_rel_some hfind
  refine ⟨other, ?_, hreordered⟩
  unfold FileSystem.node
  rw [locate_reordered hnamed h, hnames]
  dsimp only [bind, Except.bind]
  rw [hother]
  rfl

end FileSystem

end LedgerConformance
