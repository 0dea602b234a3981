import LedgerConformance.Command.Template
import LedgerConformance.Proofs.Text.Replacement
import Mathlib.Data.List.Forall2

/-!
Filling in the arguments of a command. An argument is cut into placeholders and other
characters, and filled in at once, each placeholder by its text. Filling in the file and
then the query comes to the same exactly when no further placeholder of the query appears
with the file, as when the path has no opening brace and those of the argument all
start placeholders.
-/

namespace LedgerConformance.Command.Template

open Text

/-- A part of an argument. -/
inductive Piece where
  | character (c : Char)
  | file
  | query
deriving DecidableEq

namespace Piece

/-- What a part stands for. -/
def fill (file query : List Char) : Piece → List Char
  | character c => [c]
  | .file => file
  | .query => query

/-- The characters of a part with the file filled in; a place of the query is open. -/
def places (file : List Char) : Piece → List (Option Char)
  | character c => [some c]
  | .file => file.map some
  | .query => [none]

end Piece

/-- Cuts a text into its parts; the first argument counts the characters that still
belong to the last placeholder. -/
def piecesFrom : Nat → List Char → List Piece
  | _, [] => []
  | skip + 1, _ :: rest => piecesFrom skip rest
  | 0, c :: rest =>
    if filePlaceholder.toList.isPrefixOf (c :: rest) then
      .file :: piecesFrom (filePlaceholder.toList.length - 1) rest
    else if queryPlaceholder.toList.isPrefixOf (c :: rest) then
      .query :: piecesFrom (queryPlaceholder.toList.length - 1) rest
    else .character c :: piecesFrom 0 rest

/-- The parts of an argument. -/
def pieces (argument : List Char) : List Piece := piecesFrom 0 argument

/-- The argument with all its placeholders filled in at once. -/
def filled (file query argument : String) : String :=
  String.ofList ((pieces argument.toList).flatMap (Piece.fill file.toList query.toList))

/-- A placeholder of the query appears when the file is filled in. -/
def MakesPlaceholder (file argument : String) : Prop :=
  occurrences queryPlaceholder.toList argument.toList <
    occurrences queryPlaceholder.toList (filled file queryPlaceholder argument).toList

instance (file argument : String) : Decidable (MakesPlaceholder file argument) :=
  inferInstanceAs (Decidable (_ < _))

section Pieces

theorem toList_filePlaceholder : filePlaceholder.toList = '\x7b' :: "file\x7d".toList := rfl

theorem toList_queryPlaceholder : queryPlaceholder.toList = '\x7b' :: "query\x7d".toList := rfl

theorem brace_not_mem_file : '\x7b' ∉ "file\x7d".toList := by decide

theorem brace_not_mem_query : '\x7b' ∉ "query\x7d".toList := by decide

theorem not_file_prefix_query (rest : List Char) :
    ¬ filePlaceholder.toList <+: '\x7b' :: ("query\x7d".toList ++ rest) := by
  rw [toList_filePlaceholder, List.cons_prefix_cons]
  exact fun h => not_prefix_of_ne (by decide) _ h.2

theorem not_query_prefix_file (rest : List Char) :
    ¬ queryPlaceholder.toList <+: '\x7b' :: ("file\x7d".toList ++ rest) := by
  rw [toList_queryPlaceholder, List.cons_prefix_cons]
  exact fun h => not_prefix_of_ne (by decide) _ h.2

theorem piecesFrom_eq (skip : Nat) (s : List Char) : piecesFrom skip s = pieces (s.drop skip) := by
  induction s generalizing skip with
  | nil => cases skip <;> rfl
  | cons c rest ih =>
    cases skip with
    | zero => rfl
    | succ skip => rw [piecesFrom, ih, List.drop_succ_cons]

theorem pieces_file (rest : List Char) :
    pieces (filePlaceholder.toList ++ rest) = .file :: pieces rest := by
  have hstarts := List.isPrefixOf_iff_prefix.mpr (List.prefix_append filePlaceholder.toList rest)
  rw [toList_filePlaceholder, List.cons_append] at hstarts ⊢
  rw [pieces, piecesFrom, toList_filePlaceholder, if_pos hstarts, piecesFrom_eq]
  rfl

theorem pieces_query (rest : List Char) :
    pieces (queryPlaceholder.toList ++ rest) = .query :: pieces rest := by
  have hfile := mt List.isPrefixOf_iff_prefix.mp (not_file_prefix_query rest)
  have hstarts := List.isPrefixOf_iff_prefix.mpr (List.prefix_append queryPlaceholder.toList rest)
  rw [toList_queryPlaceholder, List.cons_append] at hstarts ⊢
  rw [pieces, piecesFrom, if_neg hfile, toList_queryPlaceholder, if_pos hstarts, piecesFrom_eq]
  rfl

theorem pieces_cons {c : Char} {rest : List Char}
    (hfile : ¬ filePlaceholder.toList <+: c :: rest)
    (hquery : ¬ queryPlaceholder.toList <+: c :: rest) :
    pieces (c :: rest) = .character c :: pieces rest := by
  rw [pieces, piecesFrom, if_neg (mt List.isPrefixOf_iff_prefix.mp hfile),
    if_neg (mt List.isPrefixOf_iff_prefix.mp hquery)]
  rfl

/-- An argument ends, or starts with a placeholder or another character. -/
theorem argument_induction {motive : List Char → Prop} (nil : motive [])
    (file : ∀ rest, motive rest → motive (filePlaceholder.toList ++ rest))
    (query : ∀ rest, motive rest → motive (queryPlaceholder.toList ++ rest))
    (character : ∀ c rest, ¬ filePlaceholder.toList <+: c :: rest →
      ¬ queryPlaceholder.toList <+: c :: rest → motive rest → motive (c :: rest))
    (argument : List Char) : motive argument := by
  induction argument using
      patterns_induction [filePlaceholder.toList, queryPlaceholder.toList] (by decide) with
  | nil => exact nil
  | found pattern hpattern rest ih =>
    simp only [List.mem_cons, List.not_mem_nil, or_false] at hpattern
    rcases hpattern with rfl | rfl
    · exact file rest ih
    · exact query rest ih
  | cons c rest hstarts ih =>
    exact character c rest (hstarts _ (by simp)) (hstarts _ (by simp)) ih

/-- Every placeholder of the query is a part of the argument. -/
theorem occurrences_query (argument : List Char) :
    occurrences queryPlaceholder.toList argument = (pieces argument).count .query := by
  induction argument using argument_induction with
  | nil => rfl
  | file rest ih =>
    rw [pieces_file, List.count_cons_of_ne (by decide), ← ih, toList_filePlaceholder,
      List.cons_append, occurrences_cons_of_not_found (not_query_prefix_file rest),
      toList_queryPlaceholder, occurrences_append_of_not_mem brace_not_mem_file]
  | query rest ih =>
    rw [pieces_query, List.count_cons_self, ← ih]
    exact occurrences_append_self brace_not_mem_query rest
  | character c rest hfile hquery ih =>
    rw [pieces_cons hfile hquery, List.count_cons_of_ne (by simp), ← ih,
      occurrences_cons_of_not_found hquery]

/-- Replacing the placeholders of the file leaves those of the query. -/
theorem replaceAll_file (file argument : List Char) :
    replaceAll filePlaceholder.toList file argument =
      (pieces argument).flatMap (Piece.fill file queryPlaceholder.toList) := by
  induction argument using argument_induction with
  | nil => rfl
  | file rest ih =>
    rw [pieces_file, List.flatMap_cons, ← ih, replaceAll_append_self (by decide), Piece.fill]
  | query rest ih =>
    rw [pieces_query, List.flatMap_cons, ← ih, Piece.fill, toList_queryPlaceholder,
      List.cons_append, replaceAll_cons_of_not_found (not_file_prefix_query rest),
      toList_filePlaceholder, replaceAll_append_of_not_mem brace_not_mem_query, List.cons_append]
  | character c rest hfile hquery ih =>
    rw [pieces_cons hfile hquery, List.flatMap_cons, ← ih, replaceAll_cons_of_not_found hfile,
      Piece.fill, List.singleton_append]

end Pieces

section Places

/-- The characters of several parts, with the places of the query open. -/
def places (file : List Char) (parts : List Piece) : List (Option Char) :=
  parts.flatMap (Piece.places file)

theorem Piece.fillPlaces_places (file query : List Char) (part : Piece) :
    fillPlaces query (part.places file) = part.fill file query := by
  cases part with
  | character c => rfl
  | file => exact fillPlaces_map_some query file
  | query => exact List.append_nil query

theorem fillPlaces_places (file query : List Char) (parts : List Piece) :
    fillPlaces query (places file parts) = parts.flatMap (Piece.fill file query) := by
  induction parts with
  | nil => rfl
  | cons part rest ih =>
    rw [places, List.flatMap_cons, fillPlaces_append, Piece.fillPlaces_places, List.flatMap_cons,
      ← ih, places]

theorem count_none_places (file : List Char) (parts : List Piece) :
    (places file parts).count none = parts.count .query := by
  induction parts with
  | nil => rfl
  | cons part rest ih =>
    rw [places, List.flatMap_cons, List.count_append, ← places, ih]
    cases part with
    | character c => simp [Piece.places]
    | file => simp [Piece.places, List.count_eq_zero]
    | query => simp [Piece.places, Nat.add_comm]

theorem brace_not_mem_places {file : List Char} (hfile : '\x7b' ∉ file) {parts : List Piece}
    (hparts : .character '\x7b' ∉ parts) : some '\x7b' ∉ places file parts := by
  intro hmem
  obtain ⟨part, hpart, hplace⟩ := List.mem_flatMap.mp hmem
  cases part with
  | character c =>
    simp only [Piece.places, List.mem_singleton, Option.some.injEq] at hplace
    exact hparts (hplace ▸ hpart)
  | file =>
    obtain ⟨c, hc, heq⟩ := List.mem_map.mp hplace
    exact hfile (Option.some.inj heq ▸ hc)
  | query => simp [Piece.places] at hplace

end Places

section Arguments

variable (file query argument : String)

theorem toList_filled :
    (filled file query argument).toList =
      fillPlaces query.toList (places file.toList (pieces argument.toList)) := by
  rw [filled, String.toList_ofList, fillPlaces_places]

theorem toList_renderArgument :
    (renderArgument file query argument).toList =
      replaceAll queryPlaceholder.toList query.toList
        (fillPlaces queryPlaceholder.toList (places file.toList (pieces argument.toList))) := by
  rw [renderArgument, replaceText, replaceText, String.toList_ofList, String.toList_ofList,
    replaceAll_file, fillPlaces_places]

theorem not_makesPlaceholder_iff :
    ¬ MakesPlaceholder file argument ↔
      occurrences queryPlaceholder.toList
          (fillPlaces queryPlaceholder.toList (places file.toList (pieces argument.toList))) =
        (places file.toList (pieces argument.toList)).count none := by
  have hcount := count_none_le_occurrences brace_not_mem_query
    (places file.toList (pieces argument.toList))
  rw [← toList_queryPlaceholder] at hcount
  rw [MakesPlaceholder, toList_filled, occurrences_query, ← count_none_places file.toList]
  omega

/-- The file and then the query are filled in as if at once, exactly when the query is
its own placeholder or none appears with the file. -/
theorem renderArgument_eq_filled_iff :
    renderArgument file query argument = filled file query argument ↔
      query = queryPlaceholder ∨ ¬ MakesPlaceholder file argument := by
  have hiff := replaceAll_fillPlaces_iff brace_not_mem_query query.toList
    (places file.toList (pieces argument.toList))
  rw [← toList_queryPlaceholder, ← toList_renderArgument, ← toList_filled, String.toList_inj,
    String.toList_inj] at hiff
  rw [hiff, not_makesPlaceholder_iff]

theorem filled_filePlaceholder : filled file query filePlaceholder = file := by
  have hpieces : pieces filePlaceholder.toList = [.file] := by decide
  rw [filled, hpieces, List.flatMap_singleton, Piece.fill, String.ofList_toList]

theorem makesPlaceholder_filePlaceholder_iff :
    MakesPlaceholder file filePlaceholder ↔ Text.contains file queryPlaceholder = true := by
  have hnone : occurrences queryPlaceholder.toList filePlaceholder.toList = 0 := by decide
  rw [MakesPlaceholder, hnone, filled_filePlaceholder, occurrences_pos_iff (by decide),
    contains_iff]

variable {file argument} in
theorem not_makesPlaceholder_of_not_mem (hfile : '\x7b' ∉ file.toList)
    (hargument : .character '\x7b' ∉ pieces argument.toList) :
    ¬ MakesPlaceholder file argument := by
  rw [not_makesPlaceholder_iff]
  exact occurrences_fillPlaces_of_not_mem brace_not_mem_query
    (brace_not_mem_places hfile hargument)

end Arguments

/-- There is one argument for each argument of the template. It is that argument with all
its placeholders filled in at once, exactly when the query is its own placeholder or none
appears with the file; for the placeholder of the file alone it is the path, exactly when
the query is its own placeholder or none stands in the path. None appears when the path
has no opening brace and those of the argument all start placeholders. -/
theorem render_fills (t : Template) (file : String) (query : Option String) :
    List.Forall₂
      (fun argument rendered =>
        (rendered = filled file (query.getD "") argument ↔
          query.getD "" = queryPlaceholder ∨ ¬ MakesPlaceholder file argument) ∧
        (argument = filePlaceholder →
          (rendered = file ↔
            query.getD "" = queryPlaceholder ∨ ¬ Text.contains file queryPlaceholder = true)) ∧
        ('\x7b' ∉ file.toList → .character '\x7b' ∉ pieces argument.toList →
          rendered = filled file (query.getD "") argument))
      t.arguments (t.render file query) := by
  rw [render, List.forall₂_map_right_iff, List.forall₂_same]
  intro argument _
  have hiff := renderArgument_eq_filled_iff file (query.getD "") argument
  refine ⟨hiff, ?_, ?_⟩
  · rintro rfl
    rw [← makesPlaceholder_filePlaceholder_iff, ← hiff, filled_filePlaceholder]
  · intro hfile hargument
    exact hiff.mpr (Or.inr (not_makesPlaceholder_of_not_mem hfile hargument))

/-- A path with a blank, and a query that is the placeholder of the file. -/
theorem render_fills_bracedQuery :
    (line "--file=\x7bfile\x7d \x7bquery\x7d").render "a b" (some filePlaceholder) =
      ["--file=a b", filePlaceholder] := by
  have harguments : (line "--file=\x7bfile\x7d \x7bquery\x7d").arguments =
      ["--file=\x7bfile\x7d", queryPlaceholder] := by decide
  have hrendered := render_fills (line "--file=\x7bfile\x7d \x7bquery\x7d") "a b"
    (some filePlaceholder)
  rw [harguments] at hrendered
  generalize (line "--file=\x7bfile\x7d \x7bquery\x7d").render "a b" (some filePlaceholder) =
    rendered at hrendered ⊢
  obtain _ | ⟨⟨-, -, hfirst⟩, _ | ⟨⟨-, -, hsecond⟩, _ | _⟩⟩ := hrendered
  rw [hfirst (by decide) (by decide), hsecond (by decide) (by decide)]
  decide

/-- The query is filled in where its placeholder comes from the path. -/
theorem render_bracedPath :
    (argv [filePlaceholder]).render "a\x7bquery\x7d.beancount" (some "x") = ["ax.beancount"] ∧
      (argv [filePlaceholder]).render "a\x7bquery\x7d.beancount" (some "x") ≠
        (argv [filePlaceholder]).arguments.map (filled "a\x7bquery\x7d.beancount" "x") := by
  decide

end LedgerConformance.Command.Template
