import SqlCatalog.Statement.Shape
import SqlCatalog.Operation.Marker
/-!
Operations: the statements of a source under a name, compiled for the placeholders of an engine.
-/
namespace SqlCatalog

structure Operation where
  name : String
  category : Category
  style : PlaceholderStyle
  first : CompiledSql
  others : List CompiledSql
  -- The whole text of a script without parameters, which an engine may run in one go.
  script : Option String
  script_bare : script.isSome → ∀ c ∈ first :: others, c.params = []
deriving DecidableEq

namespace Operation

def statements (op : Operation) : List CompiledSql := op.first :: op.others

def ofStatements (name : String) (l : StatementList) (style : PlaceholderStyle) : Operation :=
  let category := Category.ofStatements l
  let compile (s : Statement) := CompiledSql.ofMarkers s.sql style
  let first := compile l.first
  let others := if category.isSingle then [] else l.statements.tail.map compile
  { name, category, style, first, others
    script :=
      if category = .script ∧ (first :: others).all fun c => !c.hasParams then some l.script
      else none
    script_bare := by
      intro native c member
      simp only [Option.isSome_ite, List.all_eq_true] at native
      simpa [CompiledSql.hasParams] using native.2 c member }

def compile (files : FileView) (d : Dialect) (style : PlaceholderStyle) (name : String)
    (source : SqlSource) : Except Failure Operation := do
  let l ← source.statements files d
  return ofStatements name l style

def isInsert (op : Operation) : Bool := op.category.isInsert

def paramNames (op : Operation) : List String := firstAppearances (op.statements.flatMap (·.params))

end Operation
end SqlCatalog
