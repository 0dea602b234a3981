import LedgerConformance.Ledger.Directive

/-!
Ledgers as texts. A directive is a line at the margin, then its metadata and
its postings on indented lines, then a blank line. Strings are quoted, and a
quote or a backslash inside of one has a backslash before it. A directive that
is put on lines keeps everything but the numbers of its lines.
-/

namespace LedgerConformance.Ledger

namespace Token

def escaped : List Char → List Char
  | [] => []
  | c :: rest => if c == '"' || c == '\\' then '\\' :: c :: escaped rest else c :: escaped rest

def write : Token → List Char
  | word s => s.toList
  | text s => '"' :: escaped s.toList ++ ['"']

/-- Tokens with one blank between neighbours. -/
def writeAll (tokens : List Token) : List Char := [' '].intercalate (tokens.map write)

end Token

/-- What stands behind the date. -/
def Content.tokens : Content → List Token
  | .transaction flag payee narration =>
    .word (String.singleton flag) :: (payee.toList ++ narration.toList).map .text
  | .opening account [] => [.word "open", .word account]
  | .opening account currencies =>
    [.word "open", .word account, .word (",".intercalate currencies)]
  | .closing account => [.word "close", .word account]
  | .commodity currency => [.word "commodity", .word currency]
  | .balance account number currency =>
    [.word "balance", .word account, .word number, .word currency]
  | .pad account source => [.word "pad", .word account, .word source]
  | .note account comment => [.word "note", .word account, .text comment]
  | .document account path => [.word "document", .word account, .text path]
  | .event name value => [.word "event", .text name, .text value]
  | .query name statement => [.word "query", .text name, .text statement]
  | .price currency number quote =>
    [.word "price", .word currency, .word number, .word quote]
  | .custom name => [.word "custom", .text name]

def Posting.tokens (p : Posting) : List Token :=
  (p.flag.toList.map fun flag => .word (String.singleton flag)) ++
    (p.account :: (p.number.toList ++ p.currency.toList)).map .word

namespace Directive

def headTokens (d : Directive) : List Token := .word d.date.toText :: d.content.tokens

def metadataTokens (entry : String × String) : List Token :=
  [.word (entry.1 ++ ":"), .text entry.2]

def indent (line : List Char) : List Char := ' ' :: ' ' :: line

/-- The lines of a directive, the blank one at the end included. -/
def lines (d : Directive) : List (List Char) :=
  Token.writeAll d.headTokens ::
    (d.metadata.map fun entry => indent (Token.writeAll (metadataTokens entry))) ++
    (d.postings.map fun p => indent (Token.writeAll p.tokens)) ++ [[]]

/-- The directive with the numbers of the lines that it is written on, of which
the first has the number `line`. -/
def placedAt (line : Nat) (d : Directive) : Directive :=
  let first := line + 1 + d.metadata.length
  { d with line, postings := d.postings.mapIdx fun i p => { p with line := first + i } }

end Directive

/-- The directives with the numbers of the lines that they are written on. -/
def placedFrom (line : Nat) : List Directive → List Directive
  | [] => []
  | d :: rest => d.placedAt line :: placedFrom (line + d.lines.length) rest

/-- The text of a ledger. -/
def render (directives : List Directive) : String :=
  String.ofList ((directives.flatMap Directive.lines).flatMap (· ++ ['\n']))

/-! ### Line numbers -/

namespace Directive

/-- The directive with all its line numbers set to zero. -/
def unnumbered (d : Directive) : Directive :=
  { d with line := 0, postings := d.postings.map fun p => { p with line := 0 } }

theorem unnumbered_placedAt (line : Nat) (d : Directive) :
    (d.placedAt line).unnumbered = d.unnumbered := by
  have hpostings : (d.placedAt line).unnumbered.postings = d.unnumbered.postings := by
    apply List.ext_getElem
    · simp [unnumbered, placedAt]
    · intro i hi hi'
      simp [unnumbered, placedAt]
  simpa [unnumbered, placedAt] using hpostings

/-- The postings of a directive are written behind its head and its metadata. -/
theorem getElem?_lines_posting (d : Directive) {i : Nat} {p : Posting}
    (h : d.postings[i]? = some p) :
    d.lines[1 + d.metadata.length + i]? = some (indent (Token.writeAll p.tokens)) := by
  obtain ⟨hi, _⟩ := List.getElem?_eq_some_iff.mp h
  have hindex : 1 + d.metadata.length + i = (d.metadata.length + i) + 1 := by omega
  rw [lines, List.cons_append, List.cons_append, hindex, List.getElem?_cons_succ,
    List.append_assoc, List.getElem?_append_right (by simp), List.length_map,
    Nat.add_sub_cancel_left, List.getElem?_append_left (by simpa using hi), List.getElem?_map, h]
  rfl

end Directive

theorem map_unnumbered_placedFrom (line : Nat) (directives : List Directive) :
    (placedFrom line directives).map Directive.unnumbered =
      directives.map Directive.unnumbered := by
  induction directives generalizing line with
  | nil => rfl
  | cons d rest ih =>
    rw [placedFrom, List.map_cons, List.map_cons, Directive.unnumbered_placedAt, ih]

/-- The numbers of heads and postings lead to their lines. -/
theorem lines_of_placedFrom (front : List (List Char)) (directives : List Directive) :
    ∀ d ∈ placedFrom (front.length + 1) directives,
      (front ++ directives.flatMap Directive.lines)[d.line - 1]? =
          some (Token.writeAll d.headTokens) ∧
        ∀ p ∈ d.postings, (front ++ directives.flatMap Directive.lines)[p.line - 1]? =
          some (Directive.indent (Token.writeAll p.tokens)) := by
  induction directives generalizing front with
  | nil => simp [placedFrom]
  | cons first rest ih =>
    intro d hd
    rw [placedFrom, List.mem_cons] at hd
    rw [List.flatMap_cons]
    rcases hd with rfl | hd
    · have hfront : ∀ i line, first.lines[i]? = some line →
          (front ++ (first.lines ++ rest.flatMap Directive.lines))[front.length + i]? =
            some line := by
        intro i line hline
        obtain ⟨hi, _⟩ := List.getElem?_eq_some_iff.mp hline
        rw [List.getElem?_append_right (by omega), Nat.add_sub_cancel_left,
          List.getElem?_append_left hi, hline]
      constructor
      · exact hfront 0 _ rfl
      · intro p hp
        obtain ⟨i, hi, rfl⟩ := List.mem_mapIdx.mp hp
        have hline := first.getElem?_lines_posting (List.getElem?_eq_getElem hi)
        have hindex : front.length + 1 + 1 + first.metadata.length + i - 1 =
            front.length + (1 + first.metadata.length + i) := by omega
        simp only [hindex]
        exact hfront _ _ hline
    · have hlater := ih (front ++ first.lines) d
      rw [List.append_assoc, List.length_append, Nat.add_right_comm] at hlater
      exact hlater hd

end LedgerConformance.Ledger
