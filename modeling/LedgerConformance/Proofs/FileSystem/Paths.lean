import LedgerConformance.FileSystem.Path
import LedgerConformance.Proofs.Text.Pieces
import Mathlib.Data.List.Lex
import Mathlib.Data.List.TakeWhile
import Mathlib.Data.Prod.Lex
import Mathlib.Data.String.Basic

/-!
Names below a path, parents, and the order of paths. A name that is joined to a path is its
last component behind those of the path, whatever the path looks like, and the extension of the
whole is the extension of the name. The parent of a path has its components without the last
one, with which the path goes on from it. Paths are ordered as the lists of their components
are, the first difference deciding.
-/

namespace LedgerConformance.Path

/-- What an entry of a directory can be called. -/
structure IsName (name : String) : Prop where
  ne_empty : name ≠ ""
  ne_here : name ≠ "."
  ne_up : name ≠ ".."
  no_slash : '/' ∉ name.toList

instance (name : String) : Decidable (IsName name) :=
  decidable_of_iff (name ≠ "" ∧ name ≠ "." ∧ name ≠ ".." ∧ '/' ∉ name.toList)
    ⟨fun ⟨hempty, hhere, hup, hslash⟩ => ⟨hempty, hhere, hup, hslash⟩,
      fun h => ⟨h.ne_empty, h.ne_here, h.ne_up, h.no_slash⟩⟩

/-! ### Segments -/

theorem segments_append_slash (s t : List Char) :
    segments (s ++ '/' :: t) = segments s ++ segments t := by
  simp only [segments, Text.splitOnChar_eq_splitOn]
  exact List.splitOn_append_cons_self s t

theorem segments_slash (s : List Char) : segments ('/' :: s) = [] :: segments s :=
  segments_append_slash [] s

theorem segments_of_no_slash {s : List Char} (h : '/' ∉ s) : segments s = [s] := by
  rw [segments, Text.splitOnChar_eq_splitOn, List.splitOn_eq_singleton h]

theorem divide_of_no_slash {s : List Char} (hslash : '/' ∉ s) (hhere : s ≠ ['.']) :
    divide s = ([], s) := by
  fun_cases divide s with
  | case1 => simp at hslash
  | case2 => contradiction
  | case3 => simp at hslash
  | case4 => rfl

/-- What leads a path does not change when the path goes on below. -/
theorem divide_append_slash {s : List Char} (hne : s ≠ []) (t : List Char) :
    divide (s ++ '/' :: t) = ((divide s).1, (divide s).2 ++ '/' :: t) := by
  fun_cases divide s with
  | case1 => rfl
  | case2 => rfl
  | case3 => rfl
  | case4 _ hroot hhere hbelow =>
    obtain ⟨c, rest, rfl⟩ := List.exists_cons_of_ne_nil hne
    refine divide.eq_4 _ ?_ ?_ ?_
    · intro body hbody
      exact hroot rest (by rw [(List.cons.inj hbody).1])
    · intro hdot
      simp at hdot
    · intro body hbody
      obtain ⟨rfl, hrest⟩ := List.cons.inj hbody
      cases rest with
      | nil => exact hhere rfl
      | cons d rest => exact hbelow rest (by rw [(List.cons.inj hrest).1])

theorem toList_join {name : String} (h : IsName name) (base : String) :
    (join base name).toList =
      if base = "" ∨ base.toList.getLast? = some '/' then base.toList ++ name.toList
      else base.toList ++ '/' :: name.toList := by
  have habsolute : ¬ isAbsolute name = true := by
    rw [isAbsolute, beq_iff_eq]
    exact fun hhead => h.no_slash (List.mem_of_mem_head? hhead)
  have hcond : (base.isEmpty || base.toList.getLast? == some '/') = true ↔
      base = "" ∨ base.toList.getLast? = some '/' := by
    rw [Bool.or_eq_true, String.isEmpty_iff, beq_iff_eq]
  rw [join, if_neg habsolute]
  simp only [hcond]
  split <;> simp

/-- A name below a path is the last segment of the whole, and the segments before it name
what those of the path name. -/
theorem exists_segments_join {name : String} (h : IsName name) (base : String) :
    ∃ body before, divide (join base name).toList = ((divide base.toList).1, body) ∧
      segments body = before ++ [name.toList] ∧
      before.filter (! namesNothing ·) =
        (segments (divide base.toList).2).filter (! namesNothing ·) := by
  have hname := segments_of_no_slash h.no_slash
  have hhere : name.toList ≠ ['.'] := fun heq => h.ne_here (String.toList_inj.mp heq)
  rw [toList_join h]
  by_cases hempty : base = ""
  · subst hempty
    rw [if_pos (Or.inl rfl)]
    exact ⟨name.toList, [], divide_of_no_slash h.no_slash hhere, hname, rfl⟩
  have hne : base.toList ≠ [] := fun hnil => hempty (String.toList_eq_nil_iff.mp hnil)
  by_cases hslash : base.toList.getLast? = some '/'
  · rw [if_pos (Or.inr hslash)]
    obtain ⟨front, hfront⟩ := List.getLast?_eq_some_iff.mp hslash
    rw [hfront, List.append_assoc, List.singleton_append]
    by_cases hroot : front = []
    · subst hroot
      exact ⟨name.toList, [], rfl, hname, rfl⟩
    · rw [divide_append_slash hroot, divide_append_slash hroot]
      refine ⟨_, segments (divide front).2, rfl, ?_, ?_⟩
      · rw [segments_append_slash, hname]
      · rw [segments_append_slash, List.filter_append]
        exact (List.append_nil _).symm
  · rw [if_neg (not_or.mpr ⟨hempty, hslash⟩), divide_append_slash hne]
    refine ⟨_, segments (divide base.toList).2, rfl, ?_, rfl⟩
    rw [segments_append_slash, hname]

/-! ### Components -/

/-- The component that a segment is. -/
def componentOf (segment : List Char) : Component :=
  if segment == ['.', '.'] then .up else .name (String.ofList segment)

def leading (lead : List Char) : List Component :=
  match lead with
  | ['/'] => [.root]
  | ['.'] => [.here]
  | _ => []

theorem components_eq (path : String) :
    components path = leading (divide path.toList).1 ++
      ((segments (divide path.toList).2).filter (! namesNothing ·)).map componentOf := rfl

/-- What leads a path names nothing as a segment. -/
theorem filter_segments (s : List Char) :
    (segments s).filter (! namesNothing ·) =
      (segments (divide s).2).filter (! namesNothing ·) := by
  fun_cases divide s with
  | case1 body =>
    rw [segments_slash]
    rfl
  | case2 => rfl
  | case3 body =>
    have hwhole : segments ('.' :: '/' :: body) = ['.'] :: segments body :=
      segments_append_slash ['.'] body
    dsimp only
    rw [hwhole, segments_slash]
    rfl
  | case4 => rfl

theorem namesNothing_of_isName {name : String} (h : IsName name) :
    namesNothing name.toList = false := by
  have hempty : name.toList ≠ [] := fun heq => h.ne_empty (String.toList_inj.mp heq)
  have hhere : name.toList ≠ ['.'] := fun heq => h.ne_here (String.toList_inj.mp heq)
  simp [namesNothing, hempty, hhere]

theorem componentOf_of_isName {name : String} (h : IsName name) :
    componentOf name.toList = .name name := by
  have hup : name.toList ≠ ['.', '.'] := fun heq => h.ne_up (String.toList_inj.mp heq)
  rw [componentOf, if_neg (by simpa using hup), String.ofList_toList]

theorem components_join {name : String} (h : IsName name) (base : String) :
    components (join base name) = components base ++ [.name name] := by
  obtain ⟨body, before, hdivide, hbody, hbefore⟩ := exists_segments_join h base
  have hlast : [name.toList].filter (! namesNothing ·) = [name.toList] :=
    List.filter_singleton.trans (by rw [namesNothing_of_isName h]; rfl)
  rw [components_eq, components_eq, hdivide, hbody, List.filter_append, hbefore, hlast,
    List.map_append, List.map_singleton, componentOf_of_isName h, List.append_assoc]

/-- The path of what is at the end of a sequence of names below a path. -/
def below (base : String) (names : List String) : String := names.foldl join base

theorem below_concat (base : String) (names : List String) (name : String) :
    below base (names ++ [name]) = join (below base names) name := by
  rw [below, List.foldl_concat, ← below]

theorem components_below {names : List String} (h : ∀ name ∈ names, IsName name)
    (base : String) : components (below base names) = components base ++ names.map .name := by
  induction names generalizing base with
  | nil => exact (List.append_nil _).symm
  | cons name names ih =>
    obtain ⟨hname, hnames⟩ := List.forall_mem_cons.mp h
    rw [below, List.foldl_cons, ← below, ih hnames, components_join hname, List.append_assoc,
      List.map_cons, List.singleton_append]

/-- Paths below a base are apart when the names are. -/
theorem below_inj {base : String} {names others : List String}
    (hnames : ∀ name ∈ names, IsName name) (hothers : ∀ name ∈ others, IsName name)
    (h : components (below base names) = components (below base others)) : names = others := by
  rw [components_below hnames, components_below hothers] at h
  exact List.map_injective_iff.mpr (fun _ _ => Component.name.inj) (List.append_cancel_left h)

/-! ### Extensions -/

theorem reversedBody_join {name : String} (h : IsName name) (base : String) :
    ∃ rest, reversedBody (join base name) = name.toList :: rest := by
  obtain ⟨body, before, hdivide, hbody, -⟩ := exists_segments_join h base
  refine ⟨before.reverse, ?_⟩
  rw [reversedBody, hdivide, hbody, List.reverse_append, List.reverse_singleton,
    List.singleton_append]
  exact List.dropWhile_cons_of_neg (by rw [namesNothing_of_isName h]; decide)

theorem fileName?_join {name : String} (h : IsName name) (base : String) :
    fileName? (join base name) = some name := by
  have hup : name.toList ≠ ['.', '.'] := fun heq => h.ne_up (String.toList_inj.mp heq)
  obtain ⟨rest, hrest⟩ := reversedBody_join h base
  rw [fileName?, hrest]
  simp [hup]

/-- The extension stands behind the last dot of the name, before which there is something. -/
theorem extension?_join_iff {name : String} (h : IsName name) {base ext : String} :
    extension? (join base name) = some ext ↔
      ∃ stem, stem ≠ "" ∧ name = stem ++ "." ++ ext ∧ '.' ∉ ext.toList := by
  have hnotDot : ∀ s : List Char, '.' ∉ s → ∀ c ∈ s.reverse, (c != '.') = true := by
    intro s hs c hc
    rw [bne_iff_ne]
    rintro rfl
    exact hs (List.mem_reverse.mp hc)
  rw [extension?, fileName?_join h]
  simp only [Option.map_some]
  constructor
  · intro hext
    split at hext
    · rename_i dot c rest hdrop
      have hparts := List.takeWhile_append_dropWhile (p := (· != '.')) (l := name.toList.reverse)
      have hdot := List.head?_dropWhile_not (· != '.') name.toList.reverse
      rw [hdrop] at hparts hdot
      have hdot : dot = '.' := by simpa using hdot
      cases hext
      refine ⟨String.ofList (c :: rest).reverse, ?_, ?_, ?_⟩
      · simp
      · have hname := congrArg List.reverse hparts
        rw [List.reverse_reverse, hdot] at hname
        exact String.toList_inj.mp (hname.symm.trans (by simp))
      · rw [String.toList_ofList, List.mem_reverse]
        intro hmem
        simpa using List.mem_takeWhile_imp hmem
    · cases hext
  · rintro ⟨stem, hstem, rfl, hext⟩
    have hreversed : (stem ++ "." ++ ext).toList.reverse =
        ext.toList.reverse ++ '.' :: stem.toList.reverse := by simp
    have hstem : stem.toList.reverse ≠ [] := by simpa using hstem
    obtain ⟨c, rest, hrest⟩ := List.exists_cons_of_ne_nil hstem
    rw [hreversed, List.dropWhile_append_of_pos (hnotDot _ hext),
      List.takeWhile_append_of_pos (hnotDot _ hext), hrest]
    simp

/-! ### Parents -/

/-- How a path goes on from its parent: there is nothing before it, or the root, or the parent
and a slash. -/
inductive GoesOn : (path parent rest : List Char) → Prop
  | alone {path : List Char} : divide path = ([], path) → GoesOn path [] path
  | root (rest : List Char) : GoesOn ('/' :: rest) ['/'] rest
  | below {parent : List Char} (rest : List Char) : parent ≠ [] →
    GoesOn (parent ++ '/' :: rest) parent rest

theorem GoesOn.components {path parent : String} {rest : List Char}
    (h : GoesOn path.toList parent.toList rest) :
    components path = components parent ++
      ((segments rest).filter (! namesNothing ·)).map componentOf := by
  rw [components_eq, components_eq]
  generalize path.toList = s, parent.toList = t at h
  cases h with
  | alone hpath =>
    rw [hpath]
    rfl
  | root => rfl
  | below _ hne =>
    rw [divide_append_slash hne, segments_append_slash, List.filter_append, List.map_append,
      List.append_assoc]

theorem intercalate_append {front back : List (List Char)} (hfront : front ≠ [])
    (hback : back ≠ []) : ['/'].intercalate (front ++ back) =
      ['/'].intercalate front ++ '/' :: ['/'].intercalate back := by
  induction front with
  | nil => contradiction
  | cons segment front ih =>
    cases front with
    | nil =>
      rw [List.singleton_append, List.intercalate_cons_of_ne_nil hback]
      simp
    | cons next front =>
      rw [List.cons_append, List.intercalate_cons_of_ne_nil (by simp), ih (by simp),
        List.intercalate_cons_cons]
      simp

theorem intercalate_segments (s : List Char) : ['/'].intercalate (segments s) = s := by
  rw [segments, Text.splitOnChar_eq_splitOn, List.intercalate_splitOn]

/-- Segments of a path are again the segments of what they make. -/
theorem segments_intercalate {s : List Char} {kept : List (List Char)} (hne : kept ≠ [])
    (h : kept ⊆ segments s) : segments (['/'].intercalate kept) = kept := by
  rw [segments, Text.splitOnChar_eq_splitOn]
  exact List.splitOn_intercalate '/'
    (fun segment hsegment => Text.not_mem_of_mem_splitOnChar (h hsegment)) hne

/-- Segments of which one names something do not make the empty text. -/
theorem intercalate_ne_nil {s : List Char} {kept : List (List Char)} (h : kept ⊆ segments s)
    {segment : List Char} (hmem : segment ∈ kept) (hsegment : namesNothing segment = false) :
    ['/'].intercalate kept ≠ [] := by
  intro hnil
  have hempty := segments_intercalate (List.ne_nil_of_mem hmem) h
  rw [hnil] at hempty
  rw [← hempty, segments_of_no_slash List.not_mem_nil, List.mem_singleton] at hmem
  subst hmem
  cases hsegment

/-- The body of a path is cut before the segments that its last one is among. -/
theorem exists_segments_of_reversedBody {path : String} {last : List Char}
    {before : List (List Char)} (h : reversedBody path = last :: before) :
    ∃ back, segments (divide path.toList).2 =
        (before.dropWhile namesNothing).reverse ++ back ∧
      back.filter (! namesNothing ·) = [last] := by
  have hnothing : ∀ front : List (List Char),
      (front.takeWhile namesNothing).reverse.filter (! namesNothing ·) = [] := by
    intro front
    rw [List.filter_eq_nil_iff]
    intro segment hsegment
    simp [List.mem_takeWhile_imp (List.mem_reverse.mp hsegment)]
  have hlast : namesNothing last = false := by
    have hdrop := List.head?_dropWhile_not namesNothing
      (segments (divide path.toList).2).reverse
    rw [← reversedBody, h] at hdrop
    simpa using hdrop
  have hcut := List.takeWhile_append_dropWhile (p := namesNothing)
    (l := (segments (divide path.toList).2).reverse)
  rw [← reversedBody, h] at hcut
  have hsegments := congrArg List.reverse hcut
  rw [List.reverse_append, List.reverse_cons, List.reverse_reverse, List.append_assoc,
    List.singleton_append] at hsegments
  refine ⟨(before.takeWhile namesNothing).reverse ++ last ::
    ((segments (divide path.toList).2).reverse.takeWhile namesNothing).reverse, ?_, ?_⟩
  · rw [← List.append_assoc, ← List.reverse_append, List.takeWhile_append_dropWhile]
    exact hsegments.symm
  · rw [List.filter_append, List.filter_cons_of_pos (by simp [hlast]), hnothing, hnothing]
    rfl

theorem divide_append (s : List Char) : (divide s).1 ++ (divide s).2 = s := by
  fun_cases divide s <;> rfl

/-- A path goes on from its leading part with all of its body. -/
theorem exists_goesOn_leading {s : List Char} (h : segments (divide s).2 ≠ [[]]) :
    ∃ rest, GoesOn s (divide s).1 rest ∧
      (segments rest).filter (! namesNothing ·) =
        (segments (divide s).2).filter (! namesNothing ·) := by
  fun_cases divide s with
  | case1 body => exact ⟨body, .root body, rfl⟩
  | case2 => exact absurd rfl h
  | case3 body =>
    refine ⟨body, .below body (List.cons_ne_nil '.' []), ?_⟩
    dsimp only
    rw [segments_slash]
    rfl
  | case4 _ hroot hhere hbelow => exact ⟨s, .alone (divide.eq_4 s hroot hhere hbelow), rfl⟩

/-- A path with a last segment has a parent, from which it goes on with that segment. -/
theorem exists_goesOn {path : String} {last : List Char} {before : List (List Char)}
    (h : reversedBody path = last :: before) :
    ∃ parent rest, parent? path = some parent ∧ GoesOn path.toList parent.toList rest ∧
      (segments rest).filter (! namesNothing ·) = [last] := by
  obtain ⟨back, hcut, hback⟩ := exists_segments_of_reversedBody h
  have hparent : parent? path = some (String.ofList ((divide path.toList).1 ++
      ['/'].intercalate (before.dropWhile namesNothing).reverse)) := by
    rw [parent?, h]
  have hne : back ≠ [] := by
    rintro rfl
    cases hback
  have hbody := intercalate_segments (divide path.toList).2
  have hpath := divide_append path.toList
  -- Without a segment before, the parent is what leads the path; otherwise a slash follows it.
  cases hkept : before.dropWhile namesNothing with
  | nil =>
    rw [hkept, List.reverse_nil, List.nil_append] at hcut
    have hsome : segments (divide path.toList).2 ≠ [[]] := by
      intro hnil
      rw [← hcut, hnil] at hback
      cases hback
    obtain ⟨rest, hrest, hfilter⟩ := exists_goesOn_leading hsome
    rw [hkept, List.reverse_nil, List.intercalate_nil, List.append_nil] at hparent
    refine ⟨_, rest, hparent, ?_, ?_⟩
    · rwa [String.toList_ofList]
    · rw [hfilter, hcut, hback]
  | cons kept others =>
    have hkeeps : namesNothing kept = false := by
      simpa [hkept] using List.head?_dropWhile_not namesNothing before
    have hmem : kept ∈ (before.dropWhile namesNothing).reverse := by simp [hkept]
    have hfront := intercalate_ne_nil (hcut ▸ List.subset_append_left _ _) hmem hkeeps
    rw [hcut, intercalate_append (List.ne_nil_of_mem hmem) hne] at hbody
    rw [← hbody, ← List.append_assoc] at hpath
    have hbelow := GoesOn.below (['/'].intercalate back)
      (List.append_ne_nil_of_right_ne_nil (divide path.toList).1 hfront)
    rw [hpath] at hbelow
    refine ⟨_, ['/'].intercalate back, hparent, ?_, ?_⟩
    · rwa [String.toList_ofList]
    · rw [segments_intercalate hne (hcut ▸ List.subset_append_right _ _), hback]

theorem filter_segments_eq_nil_iff {path : String} :
    (segments (divide path.toList).2).filter (! namesNothing ·) = [] ↔ reversedBody path = [] := by
  rw [reversedBody, List.dropWhile_eq_nil_iff, List.filter_eq_nil_iff]
  simp

/-- Only the empty path has no components. -/
theorem components_eq_nil_iff {path : String} : components path = [] ↔ path = "" := by
  constructor
  · intro h
    rw [components_eq, List.append_eq_nil_iff, List.map_eq_nil_iff] at h
    obtain ⟨hlead, hbody⟩ := h
    rw [← String.toList_eq_nil_iff]
    generalize path.toList = s at hlead hbody
    fun_cases divide s with
    | case1 => cases hlead
    | case2 => cases hlead
    | case3 => cases hlead
    | case4 _ hroot hhere hbelow =>
      rw [divide.eq_4 s hroot hhere hbelow, List.filter_eq_nil_iff] at hbody
      obtain ⟨first, others, hs⟩ : ∃ first others, segments s = first :: others :=
        List.exists_cons_of_ne_nil (Text.splitWhere_ne_nil _ s)
      have hjoined := intercalate_segments s
      rw [hs] at hbody hjoined
      have hfirst : first = [] ∨ first = ['.'] := by
        simpa [namesNothing, or_iff_not_imp_left] using hbody first List.mem_cons_self
      cases others with
      | nil =>
        rw [List.intercalate_singleton] at hjoined
        rcases hfirst with rfl | rfl
        · exact hjoined.symm
        · exact (hhere hjoined.symm).elim
      | cons second others =>
        rw [List.intercalate_cons_cons] at hjoined
        rcases hfirst with rfl | rfl
        · exact (hroot _ hjoined.symm).elim
        · exact (hbelow _ hjoined.symm).elim
  · rintro rfl
    rfl

/-- What encloses the end of some components; the root encloses itself. -/
def enclosing : List Component → List Component
  | [.root] => [.root]
  | cs => cs.dropLast

theorem enclosing_concat (cs : List Component) {c : Component} (h : c ≠ .root) :
    enclosing (cs ++ [c]) = cs := by
  rw [enclosing.eq_2, List.dropLast_concat]
  intro heq
  have hlast := congrArg List.getLast? heq
  rw [List.getLast?_concat] at hlast
  exact h (Option.some.inj hlast)

theorem componentOf_ne_root (segment : List Char) : componentOf segment ≠ .root := by
  unfold componentOf
  split <;> exact nofun

/-- The parent of a path that leads somewhere by a last segment. -/
theorem exists_parent {path : String} (h : reversedBody path ≠ []) :
    ∃ parent rest last, parent? path = some parent ∧ GoesOn path.toList parent.toList rest ∧
      components path = components parent ++ [componentOf last] := by
  obtain ⟨last, before, hbody⟩ := List.exists_cons_of_ne_nil h
  obtain ⟨parent, rest, hparent, hrest, hlast⟩ := exists_goesOn hbody
  refine ⟨parent, rest, last, hparent, hrest, ?_⟩
  rw [hrest.components, hlast, List.map_singleton]

/-- A path that ends with a name has a parent with the components before. -/
theorem exists_parent_of_name {path name : String} {cs : List Component}
    (h : components path = cs ++ [.name name]) :
    ∃ parent, parent? path = some parent ∧ components parent = cs := by
  have hbody : reversedBody path ≠ [] := by
    intro hnil
    rw [components_eq, filter_segments_eq_nil_iff.mpr hnil, List.map_nil, List.append_nil] at h
    have hlast := congrArg List.getLast? h
    rw [List.getLast?_concat] at hlast
    unfold leading at hlast
    split at hlast <;> cases hlast
  obtain ⟨parent, rest, last, hparent, -, hcomponents⟩ := exists_parent hbody
  exact ⟨parent, hparent, (List.append_inj' (hcomponents.symm.trans h) rfl).1⟩

/-- A parent is empty, or the path goes on from it. -/
theorem goesOn_of_parent? {path parent : String} (h : parent? path = some parent) :
    parent = "" ∨ ∃ rest, GoesOn path.toList parent.toList rest := by
  by_cases hbody : reversedBody path = []
  · rw [parent?, hbody] at h
    dsimp only at h
    split at h
    · cases h
      exact .inl rfl
    · cases h
  · obtain ⟨_, rest, _, hparent, hrest, -⟩ := exists_parent hbody
    cases hparent.symm.trans h
    exact .inr ⟨rest, hrest⟩

/-- The parent of a path, or the path where it has none, is what encloses its components. -/
theorem components_parent (path : String) :
    components ((parent? path).getD path) = enclosing (components path) := by
  by_cases hbody : reversedBody path = []
  · have hcomponents := components_eq path
    rw [filter_segments_eq_nil_iff.mpr hbody, List.map_nil, List.append_nil] at hcomponents
    rw [parent?, hbody]
    by_cases hhere : (divide path.toList).1 = ['.']
    · rw [hcomponents, hhere]
      rfl
    · rw [if_neg (by simpa using hhere), Option.getD_none, hcomponents]
      unfold leading
      split
      · rfl
      · contradiction
      · rfl
  · obtain ⟨parent, rest, last, hparent, -, hcomponents⟩ := exists_parent hbody
    rw [hparent, hcomponents, enclosing_concat _ (componentOf_ne_root last)]
    rfl

/-! ### The order -/

namespace Component

/-- What components are compared by. -/
def key : Component → ℕ ×ₗ List Char
  | name s => toLex (3, s.toList)
  | c => toLex (c.rank, [])

theorem key_injective : Function.Injective key := by
  intro a b h
  cases a <;> cases b <;> simp_all [key, rank, String.toList_inj]

theorem before_iff {a b : Component} : a.before b = true ↔ a.key < b.key := by
  cases a with
  | name s =>
    cases b with
    | name t =>
      rw [before, decide_eq_true_iff, String.lt_iff_toList_lt, key, key, Prod.Lex.toLex_lt_toLex]
      simp
    | _ => simp [before, key, rank, Prod.Lex.toLex_lt_toLex]
  | _ => cases b <;> simp [before, key, rank, Prod.Lex.toLex_lt_toLex]

end Component

theorem componentsLe_iff {as bs : List Component} :
    componentsLe as bs = true ↔ ¬ bs.map Component.key < as.map Component.key := by
  induction as generalizing bs with
  | nil => simp [componentsLe]
  | cons a as ih =>
    cases bs with
    | nil => simp [componentsLe]
    | cons b bs =>
      rw [componentsLe, Bool.or_eq_true, Bool.and_eq_true, beq_iff_eq, Component.before_iff, ih,
        List.map_cons, List.map_cons, List.cons_lt_cons_iff, ← Component.key_injective.eq_iff]
      rcases lt_trichotomy a.key b.key with h | h | h
      · simp [h, h.not_gt, h.ne']
      · simp [h]
      · simp [h, h.ne', h.not_gt]

theorem le_iff {a b : String} :
    le a b = true ↔ (components a).map Component.key ≤ (components b).map Component.key :=
  componentsLe_iff.trans not_lt

theorem le_trans {a b c : String} (hab : le a b = true) (hbc : le b c = true) :
    le a c = true := le_iff.mpr ((le_iff.mp hab).trans (le_iff.mp hbc))

theorem le_total (a b : String) : (le a b || le b a) = true := by
  rw [Bool.or_eq_true, le_iff, le_iff]
  exact Std.le_total

theorem components_eq_of_le {a b : String} (hab : le a b = true) (hba : le b a = true) :
    components a = components b :=
  List.map_injective_iff.mpr Component.key_injective
    ((le_iff.mp hab).antisymm (le_iff.mp hba))

end LedgerConformance.Path
