import Mathlib
import MailCue.Lib.Dict
import MailCue.Lib.Text
import MailCue.Lib.Utf8

/-!
# Moving the data to another database

backend/app/db_migrate.py: `migrate_sqlite_to_postgres` with what it calls, over the two
databases and the backup of the first. Of the two servers it is given what PostgreSQL
makes of a row, how each orders keys, how a key is dumped and what it hashes to; of
Alembic, that an upgrade ends at the newest revision of the repository.
-/
namespace MailCue.Backend.DbMigrate
open MailCue.Lib

/-! ## Databases -/

inductive Value
  | null
  | integer (n : Int)
  | real (digits : Text)
  | text (text : Text)
  | blob (octets : Bytes)
  deriving DecidableEq

/-- A row by its columns. -/
abbrev Row := List (String × Value)

structure Column where
  name : String
  integer : Bool
  deriving DecidableEq

/-- Columns whose values have to be found in these columns of another table. -/
structure ForeignKey where
  columns : List String
  parent : String
  targets : List String
  deriving DecidableEq

structure TableSchema where
  name : String
  primary_key : List Column
  references : List ForeignKey
  deriving DecidableEq

structure Sequence where
  value : Int
  is_called : Bool
  deriving DecidableEq

/-- What the next default of the column is. -/
def Sequence.nextval (sequence : Sequence) : Int :=
  if sequence.is_called then sequence.value + 1 else sequence.value

/-- A database without its table `alembic_version`, whose row is `revision`. The tables are
in the order of `sorted_tables`; a sequence belongs to a column of a table. -/
structure Database where
  revision : Option String
  schema : List TableSchema
  names : (schema.map TableSchema.name).Nodup
  rows : String → List Row
  sequences : String × String → Option Sequence

def value (row : Row) (column : String) : Value := (Dict.get row column).getD .null

/-- The primary key of a row. -/
def key (table : TableSchema) (row : Row) : List Value :=
  table.primary_key.map fun column => value row column.name

structure Servers where
  /-- What PostgreSQL keeps of a row, where its columns take the values. -/
  store : TableSchema → Row → Except String Row
  source_order : List Value → List Value → Bool
  target_order : List Value → List Value → Bool
  /-- `json.dumps(list(row), default=str)` -/
  dumps : List Value → Text
  /-- `hashlib.sha256(...).hexdigest()` -/
  sha256 : Bytes → Text

/-! ## Copying -/

def expectedRevision : String := "028_deliverability_alerts"

/-- The values are in the parent, or one of them is null. -/
def refers (rows : String → List Row) (row : Row) (reference : ForeignKey) : Bool :=
  reference.columns.any (fun column => value row column = .null) ||
    (rows reference.parent).any fun parent =>
      reference.targets.map (value parent) = reference.columns.map (value row)

section
variable (s : Servers)

/-- `INSERT` of one row. -/
def insertRow (table : TableSchema) (target : Database) (row : Row) : Except String Database := do
  let row ← s.store table row
  if table.primary_key ≠ [] ∧
      (target.rows table.name).any (fun old => key table old = key table row) then
    throw s!"duplicate key value violates unique constraint of {table.name}"
  else if !table.references.all (refers target.rows row) then
    throw s!"insert on table {table.name} violates foreign key constraint"
  else
    return { target with
      rows := Function.update target.rows table.name (target.rows table.name ++ [row]) }

/-- `while rows := result.fetchmany(batch_size)`, with the number of rows inserted. -/
def copyRows (table : TableSchema) (batch_size : ℕ+) (rows : List Row) (inserted : Nat)
    (target : Database) : Except String (Database × Nat) := do
  match rows with
  | [] => return (target, inserted)
  | row :: rest =>
    let batch := (row :: rest).take batch_size
    let target ← batch.foldlM (insertRow s table) target
    copyRows table batch_size ((row :: rest).drop batch_size) (inserted + batch.length) target
termination_by rows.length
decreasing_by
  have hpos := batch_size.pos
  simp only [List.length_drop, List.length_cons]
  omega

/-- `_pk_digest` -/
def pkDigest (order : List Value → List Value → Bool) (rows : List Row) (table : TableSchema) :
    Nat × Text :=
  if table.primary_key = [] then (rows.length, "no-primary-key".toList)
  else
    (rows.length, s.sha256 (Utf8.encode
      (((rows.map (key table)).mergeSort order).flatMap fun key => s.dumps key ++ ['\n'])))

/-- `_ensure_empty_target` -/
def ensureEmptyTarget (target : Database) : Except String Unit :=
  target.schema.forM fun table =>
    if target.rows table.name = [] then .ok ()
    else
      .error s!"Target table {table.name} is not empty ({(target.rows table.name).length} rows); refusing to overwrite"

structure TableReport where
  table : String
  rows : Nat
  primary_key_sha256 : Text
  deriving DecidableEq

/-- The table of the source of this name; that there is one is checked before. -/
def sourceTable (source : Database) (table : TableSchema) : TableSchema :=
  (source.schema.find? fun found => found.name = table.name).getD table

/-- The loop over the tables, one turn. -/
def copyTable (source : Database) (batch_size : ℕ+) (state : Database × List TableReport)
    (table : TableSchema) : Except String (Database × List TableReport) := do
  let (target, inserted) ← copyRows s table batch_size (source.rows table.name) 0 state.1
  let source_digest := pkDigest s s.source_order (source.rows table.name) (sourceTable source table)
  let target_digest := pkDigest s s.target_order (target.rows table.name) table
  if source_digest ≠ target_digest then
    throw s!"Validation failed for {table.name}: source={source_digest.1}/{String.ofList source_digest.2}, target={target_digest.1}/{String.ofList target_digest.2}"
  else return (target, state.2 ++ [⟨table.name, inserted, source_digest.2⟩])

/-! ## Sequences -/

/-- `MAX(column)` -/
def maximum (rows : List Row) (column : String) : Option Int :=
  (rows.filterMap fun row => match value row column with
    | .integer n => some n
    | _ => none).max?

/-- `setval` of one column, where it has a sequence. -/
def resetSequence (rows : List Row) (table : String) (sequences : String × String → Option Sequence)
    (column : Column) : Except String (String × String → Option Sequence) :=
  if !column.integer || (sequences (table, column.name)).isNone then .ok sequences
  else
    let last := (maximum rows column.name).getD 1
    if last < 1 then .error s!"setval: value {last} is out of bounds for sequence"
    else
      .ok (Function.update sequences (table, column.name) (some ⟨last, !rows.isEmpty⟩))

/-- `_reset_postgres_sequences`, with the sequences as they are where one is refused. -/
def resetPostgresSequences (rows : String → List Row) :
    List (String × Column) → (String × String → Option Sequence) →
      Except String Unit × (String × String → Option Sequence)
  | [], sequences => (.ok (), sequences)
  | (table, column) :: rest, sequences =>
    match resetSequence (rows table) table sequences column with
    | .error message => (.error message, sequences)
    | .ok sequences => resetPostgresSequences rows rest sequences

/-- The columns of the primary keys, table by table. -/
def keyColumns (schema : List TableSchema) : List (String × Column) :=
  schema.flatMap fun table => table.primary_key.map fun column => (table.name, column)

/-! ## The transaction -/

/-- `target_engine.begin()`: what is raised takes back the rows, and `setval` is not taken
back. -/
def transfer (source : Database) (batch_size : ℕ+) (target : Database) :
    Except String (List TableReport) × Database :=
  match ensureEmptyTarget target with
  | .error message => (.error message, target)
  | .ok () =>
    match target.schema.foldlM (copyTable s source batch_size) (target, []) with
    | .error message => (.error message, target)
    | .ok (copied, report) =>
      match resetPostgresSequences copied.rows (keyColumns target.schema) target.sequences with
      | (.error message, sequences) => (.error message, { target with sequences := sequences })
      | (.ok (), sequences) =>
        if copied.revision ≠ some expectedRevision then
          (.error "Target Alembic revision changed during migration",
            { target with sequences := sequences })
        else (.ok report, { copied with sequences := sequences })

end

/-! ## The command -/

/-- The revisions under alembic/versions, each with the one it revises. -/
def versions : List (String × Option String) :=
  [("001_initial", none), ("002_auth_security", some "001_initial"),
    ("003_domains", some "002_auth_security"), ("004_server_settings", some "003_domains"),
    ("005_tls_certificates", some "004_server_settings"),
    ("006_mta_sts_tls_rpt", some "005_tls_certificates"),
    ("007_sandbox", some "006_mta_sts_tls_rpt"), ("008_httpbin", some "007_sandbox"),
    ("009_forwarding_rules", some "008_httpbin"),
    ("010_mailbox_signature", some "009_forwarding_rules"),
    ("011_aliases", some "010_mailbox_signature"), ("012_multi_user", some "011_aliases"),
    ("013_phone_sandbox", some "012_multi_user"), ("014_tunnels", some "013_phone_sandbox"),
    ("015_domain_record_audit", some "014_tunnels"),
    ("016_api_key_permissions", some "015_domain_record_audit"),
    ("017_catch_all_settings", some "016_api_key_permissions"),
    ("018_email_warmup", some "017_catch_all_settings"),
    ("019_provider_aware_warmup", some "018_email_warmup"),
    ("020_postgres_scale", some "019_provider_aware_warmup"),
    ("021_session_revocation", some "020_postgres_scale"),
    ("022_gpg_tenant_ownership", some "021_session_revocation"),
    ("023_reset_mta_sts_verification", some "022_gpg_tenant_ownership"),
    ("024_mailbox_purpose", some "023_reset_mta_sts_verification"),
    ("025_deliverability_reports", some "024_mailbox_purpose"),
    ("026_deliverability_automation", some "025_deliverability_reports"),
    ("027_deliverability_artifacts", some "026_deliverability_automation"),
    ("028_deliverability_alerts", some "027_deliverability_artifacts"),
    ("029_email_validation_feedback", some "028_deliverability_alerts"),
    ("030_catchall_risk_and_canary", some "029_email_validation_feedback")]

/-- The revisions that no other revises. -/
def heads (versions : List (String × Option String)) : List String :=
  (versions.map Prod.fst).filter fun revision =>
    versions.all fun version => version.2 ≠ some revision

/-- `command.upgrade(config, "head")` -/
structure Alembic where
  versions : List (String × Option String)
  upgrade : Database → Except String Database
  upgraded : ∀ target target', upgrade target = .ok target' →
    ∃ head, heads versions = [head] ∧ target'.revision = some head

structure Args where
  confirm_stopped : Bool
  batch_size : ℕ+

/-- The file of the source, what there is at the path of the backup, and the target. -/
structure World where
  source : Option Database
  backup : Option Database
  target : Database

def reprRevision : Option String → String
  | none => "None"
  | some revision => "'" ++ revision ++ "'"

/-- `sorted(set(table_names) - set(source_metadata.tables))` -/
def missingTables (source target : Database) : List String :=
  ((target.schema.map TableSchema.name).filter fun name =>
    !(source.schema.map TableSchema.name).contains name).dedup.mergeSort
      fun name other => decide (name ≤ other)

/-- `migrate_sqlite_to_postgres` -/
def migrateSqliteToPostgres (s : Servers) (alembic : Alembic) (args : Args) (world : World) :
    Except String (List TableReport) × World :=
  if !args.confirm_stopped then
    (.error "Stop MailCue first, then pass --yes-i-have-stopped-mailcue", world)
  else
    match world.source with
    | none => (.error "SQLite source does not exist", world)
    | some source =>
      if source.revision ≠ some expectedRevision then
        (.error s!"SQLite is at revision {reprRevision source.revision}; run Alembic upgrade to {expectedRevision} before transferring data", world)
      else if world.backup.isSome then (.error "Backup path already exists", world)
      else
        let world := { world with backup := some source }
        match alembic.upgrade world.target with
        | .error message => (.error message, world)
        | .ok target =>
          if missingTables source target ≠ [] then
            (.error ("Source schema is missing tables: " ++
              ", ".intercalate (missingTables source target)), { world with target := target })
          else
            let (result, target) := transfer s source args.batch_size target
            (result, { world with target := target })

end MailCue.Backend.DbMigrate
