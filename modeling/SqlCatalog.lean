import SqlCatalog.Engine.Scripted
import SqlCatalog.Main
import SqlCatalog.Proofs.Action
import SqlCatalog.Proofs.Running
import SqlCatalog.Proofs.Binding
import SqlCatalog.Proofs.Scope
import SqlCatalog.Proofs.Script
import SqlCatalog.Proofs.Calling
import SqlCatalog.Proofs.Database
import SqlCatalog.Proofs.Settled
import SqlCatalog.Proofs.Atomicity
import SqlCatalog.Proofs.Inclusion
import SqlCatalog.Proofs.MarkerNames
import SqlCatalog.Proofs.MarkerRegions
import SqlCatalog.Proofs.StatementTokens
import SqlCatalog.Proofs.SqliteTokens
import SqlCatalog.Proofs.MarkerTokens
import SqlCatalog.Proofs.Capacity
import SqlCatalog.Proofs.MarkerRoles
import SqlCatalog.Proofs.Parentheses
import SqlCatalog.Proofs.TokenSources
import SqlCatalog.Proofs.Literals
import SqlCatalog.Proofs.LimitClause
import SqlCatalog.Proofs.Batches
import SqlCatalog.Proofs.InsertionTexts
import SqlCatalog.Proofs.Insertions
import SqlCatalog.Proofs.RunLog
import SqlCatalog.Proofs.Rollbacks
import SqlCatalog.Proofs.SettledIds
import SqlCatalog.Proofs.Nesting
import SqlCatalog.Proofs.Splicing
import SqlCatalog.Proofs.EmptyStatements
import SqlCatalog.Proofs.NestedScopes
import SqlCatalog.Proofs.KeptStatements
import SqlCatalog.Proofs.Recompiling
import SqlCatalog.Proofs.Squeezing
import SqlCatalog.Proofs.StoredValues
import SqlCatalog.Proofs.AffectedRows
import SqlCatalog.Proofs.ParameterNames
import SqlCatalog.Proofs.JsonValues
import SqlCatalog.Proofs.Directories
import SqlCatalog.Proofs.InitialFile
import SqlCatalog.Proofs.ByteScan
