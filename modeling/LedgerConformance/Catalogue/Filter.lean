import LedgerConformance.Case.Basic
import LedgerConformance.Text.Substring

/-!
Selecting cases. Every criterion that is given must hold, and the selected
cases keep their order.
-/

namespace LedgerConformance

structure Filter where
  /-- The exact identifier. -/
  testId : Option String := none
  /-- The start of the name of the suite, or a part of the path of its directory. -/
  suite : Option String := none
  /-- Tags of which a case has to carry one. -/
  tags : List String := []
deriving DecidableEq, Repr

namespace Filter

def inSuite (c : Case) (suite : String) : Bool :=
  Text.startsWith c.suite suite || Text.contains c.suiteDir suite

def accepts (f : Filter) (c : Case) : Bool :=
  f.testId.all (c.id == ·) && f.suite.all (inSuite c) &&
    (f.tags.isEmpty || f.tags.any c.tags.contains)

def select (f : Filter) (cases : List Case) : List Case := cases.filter f.accepts

end Filter

end LedgerConformance
