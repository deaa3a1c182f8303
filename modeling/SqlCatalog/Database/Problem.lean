/-!
What a database can object to in a statement.
-/
namespace SqlCatalog.Database

inductive Problem where
  | emptyStatement
  | malformed (sql : String)
  | noSuchTable (name : String)
  | tableExists (name : String)
  | keyTaken
  | notWhole
  | wrongParameterCount (given needed : Nat)
  | alreadyInTransaction
  | noTransactionToCommit
  | noTransactionToRollBack
  -- An objection in words of the database's own.
  | other (message : String)
deriving DecidableEq

namespace Problem

def message : Problem → String
  | emptyStatement => "not an error"
  | malformed sql => "syntax error in " ++ sql
  | noSuchTable name => "no such table: " ++ name
  | tableExists name => s!"table {name} already exists"
  | keyTaken => "UNIQUE constraint failed: t.id"
  | notWhole => "datatype mismatch"
  | wrongParameterCount given needed =>
    s!"Wrong number of parameters passed to query. Got {given}, needed {needed}"
  | alreadyInTransaction => "cannot start a transaction within a transaction"
  | noTransactionToCommit => "cannot commit - no transaction is active"
  | noTransactionToRollBack => "cannot rollback - no transaction is active"
  | other message => message

end Problem
end SqlCatalog.Database
