import Tenancy.Api.Service
import Tenancy.Backfill.Rehearsal
import Tenancy.Directory.Memory
import Tenancy.Main
import Tenancy.Proofs.Access.Isolation
import Tenancy.Proofs.Access.RoleRequests
import Tenancy.Proofs.Backfill.Assignment
import Tenancy.Proofs.Backfill.Enforcement
import Tenancy.Proofs.Backfill.Resumption
import Tenancy.Proofs.Backfill.Retry
import Tenancy.Proofs.Database.ScopedStatements
import Tenancy.Proofs.Directory.RoleTransactions
import Tenancy.Sql.Script
import Tenancy.Proofs.Policy.Guards
import Tenancy.Proofs.Access.Decision
import Tenancy.Proofs.Database.OperandSafety
import Tenancy.Proofs.Access.Admission
import Tenancy.Proofs.Api.Requests
import Tenancy.Proofs.Api.Changes
import Tenancy.Proofs.Directory.Alike
import Tenancy.Proofs.Api.Unobservable
import Tenancy.Proofs.Backfill.Acyclicity
import Tenancy.Proofs.Database.Numbering
import Tenancy.Proofs.Backfill.Failure
import Tenancy.Proofs.Backfill.Chronicle
import Tenancy.Proofs.Token.RoundTrip
import Tenancy.Proofs.Backfill.Canonical
import Tenancy.Proofs.Filter.Grammar
import Tenancy.Proofs.Backfill.Repetition
import Tenancy.Proofs.Access.RoleOutcome
import Tenancy.Proofs.Backfill.ForeignKeys
import Tenancy.Proofs.Backfill.IndexNames
import Tenancy.Proofs.Token.Lifetime
import Tenancy.Proofs.Filter.Pagination
import Tenancy.Proofs.Filter.History
import Tenancy.Proofs.Scope.RowTenant
import Tenancy.Proofs.Http.Origins
import Tenancy.Proofs.Filter.Names
