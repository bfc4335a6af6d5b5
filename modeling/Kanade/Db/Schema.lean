import Mathlib.Data.List.Basic
import Mathlib.Logic.Function.Basic
import Kanade.Concur.Runs

/-!
# Kanade.Db.Schema

`schema.rs`: opening a database, with its migrations, over any sequence of opens. An open can stop
between any two statements, and any statement can fail.

A database is its tables with their columns, its `user_version`, and the columns that were added since
the modification times were last reset; a migration that adds a column and resets the times wants none
of its own there.

`consistent_iff`: every migration up to `user_version` has taken effect all along a run exactly if no
version is written after a batch that has left out a statement which had not yet taken effect.
-/

namespace Kanade

open Concur

structure SchemaDb where
  tables : String → Option (List String)
  userVersion : Int
  /-- The columns that `ALTER TABLE` has added since the last reset. -/
  unreset : List (String × String)

/-! ## Statements -/

inductive Statement where
  | pragma
  /-- `CREATE TABLE IF NOT EXISTS`, also of a virtual table. -/
  | createTable (table : String) (columns : List String)
  | createIndex (table : String) (columns : List String)
  | createTrigger (table : String)
  | addColumn (table column : String)
  /-- `UPDATE tracks SET mtime = NULL`. -/
  | resetMtime
  /-- An `UPDATE` of the rows where the column is already what it is set to. -/
  | updateColumn (table column : String)
deriving DecidableEq, Repr

namespace SchemaDb

def HasTable (db : SchemaDb) (table : String) : Prop := (db.tables table).isSome

def HasColumn (db : SchemaDb) (table column : String) : Prop :=
  ∃ columns ∈ db.tables table, column ∈ columns

instance (db : SchemaDb) (table : String) : Decidable (db.HasTable table) :=
  inferInstanceAs (Decidable ((db.tables table).isSome = true))

instance (db : SchemaDb) (table column : String) : Decidable (db.HasColumn table column) :=
  inferInstanceAs (Decidable (∃ columns ∈ db.tables table, _))

def setTable (db : SchemaDb) (table : String) (columns : List String) : SchemaDb :=
  { db with tables := Function.update db.tables table (some columns) }

end SchemaDb

def Statement.exec (db : SchemaDb) : Statement → Except String SchemaDb
  | .pragma => .ok db
  | .createTable table columns =>
    if db.HasTable table then .ok db else .ok (db.setTable table columns)
  | .createIndex table columns =>
    if ∀ column ∈ columns, db.HasColumn table column then .ok db
    else .error ("no such column in " ++ table)
  | .createTrigger table =>
    if db.HasTable table then .ok db else .error ("no such table: " ++ table)
  | .addColumn table column =>
    match db.tables table with
    | none => .error ("no such table: " ++ table)
    | some columns =>
      if column ∈ columns then .error ("duplicate column name: " ++ column)
      else .ok { db.setTable table (columns ++ [column]) with
        unreset := (table, column) :: db.unreset }
  | .resetMtime =>
    if db.HasColumn "tracks" "mtime" then .ok { db with unreset := [] }
    else .error "no such column: mtime"
  | .updateColumn table column =>
    if db.HasColumn table column then .ok db else .error ("no such column: " ++ column)

/-! ## The schema and its migrations -/

/-- `SCHEMA_SQL`. -/
def schemaSql : List Statement :=
  [.pragma,
    .pragma,
    .createTable "artists" ["id", "name"],
    .createTable "albums" ["id", "dir_path", "title", "artwork_path"],
    .createTable "tracks"
      ["file_path", "id", "album_id", "title", "track_number", "disc_number", "duration_secs",
        "format", "sample_rate", "artist", "album_artist", "album_title", "composer", "genre",
        "mtime"],
    .createIndex "tracks" ["album_id"],
    .createIndex "tracks" ["artist"],
    .createIndex "tracks" ["mtime"],
    .createTable "tracks_fts"
      ["track_id", "title", "album", "artist", "album_artist", "composer", "genre"],
    .createTrigger "tracks",
    .createTrigger "tracks",
    .createTrigger "tracks"]

structure Migration where
  version : Int
  statements : List Statement
deriving DecidableEq

/-- `MIGRATIONS`. -/
def migrations : List Migration :=
  [⟨1, [.addColumn "tracks" "mtime"]⟩,
    ⟨2, [.addColumn "tracks" "genre", .resetMtime]⟩,
    ⟨3, [.addColumn "tracks" "album_artist", .resetMtime]⟩,
    ⟨4, [.addColumn "albums" "artwork_path", .resetMtime]⟩,
    ⟨5, [.addColumn "tracks" "disc_number", .resetMtime]⟩,
    ⟨6, [.createTable "playback_state"
      ["node_id", "queue", "current_index", "volume", "shuffle", "repeat", "updated_at"]]⟩,
    ⟨7, [.addColumn "playback_state" "active_output_id",
      .updateColumn "playback_state" "active_output_id"]⟩,
    ⟨8, [.createTable "playlists"
        ["id", "name", "description", "kind", "smart_filter", "created_at", "updated_at"],
      .createTable "playlist_tracks" ["playlist_id", "position", "track_id"],
      .createIndex "playlist_tracks" ["track_id"],
      .createIndex "playlists" ["name"]]⟩,
    ⟨9, [.addColumn "playback_state" "node_type",
      .addColumn "playback_state" "device_id",
      .addColumn "playback_state" "disconnected_at"]⟩]

/-! ## Opening -/

/-- Where an open is. -/
inductive Opening where
  | closed
  /-- In `execute_batch(SCHEMA_SQL)`. -/
  | schema (rest : List Statement)
  | readVersion
  /-- In the batch of a migration. -/
  | batch (current : Int) (m : Migration) (rest : List Statement) (later : List Migration)
  /-- About to write the version; `skipped` is the statement at which the batch stopped, with all
  after it. -/
  | bump (current : Int) (m : Migration) (skipped : List Statement) (later : List Migration)

structure OpenState where
  db : SchemaDb
  opening : Opening

/-- What happens at the next statement. -/
inductive Fate where
  | runs
  | fails
  | stops
deriving DecidableEq

/-- The loop of `apply_migrations`, up to the next migration that is pending. -/
def nextMigration (current : Int) : List Migration → Opening
  | [] => .closed
  | m :: later =>
    if m.version ≤ current then nextMigration current later
    else .batch current m m.statements later

/-- One statement of `apply`, or the end of a batch. An open that has stopped, failed or returned is
followed by another. -/
def openStep : Fate → OpenState → OpenState
  | .stops, s => { s with opening := .closed }
  | fate, ⟨db, .closed⟩ => ⟨db, if fate = .runs then .schema schemaSql else .closed⟩
  | _, ⟨db, .schema []⟩ => ⟨db, .readVersion⟩
  | fate, ⟨db, .schema (stmt :: rest)⟩ =>
    match fate, stmt.exec db with
    | .runs, .ok db => ⟨db, .schema rest⟩
    | _, _ => ⟨db, .closed⟩
  | fate, ⟨db, .readVersion⟩ =>
    ⟨db, if fate = .runs then nextMigration db.userVersion migrations else .closed⟩
  | _, ⟨db, .batch current m [] later⟩ => ⟨db, .bump current m [] later⟩
  | fate, ⟨db, .batch current m (stmt :: rest) later⟩ =>
    match fate, stmt.exec db with
    | .runs, .ok db => ⟨db, .batch current m rest later⟩
    -- the error of a batch is only logged
    | _, _ => ⟨db, .bump current m (stmt :: rest) later⟩
  | fate, ⟨db, .bump current m _ later⟩ =>
    if fate = .runs then ⟨{ db with userVersion := m.version }, nextMigration current later⟩
    else ⟨db, .closed⟩

/-! ## What has taken effect -/

def Migration.added (m : Migration) : List (String × String) :=
  m.statements.filterMap fun
    | .addColumn table column => some (table, column)
    | _ => none

/-- The table or column is there, and a reset has come after the columns of its migration. -/
def Migration.Effective (m : Migration) (db : SchemaDb) : Statement → Prop
  | .createTable table _ => db.HasTable table
  | .addColumn table column => db.HasColumn table column
  | .resetMtime => ∀ column ∈ m.added, column ∉ db.unreset
  | _ => True

instance (m : Migration) (db : SchemaDb) (stmt : Statement) : Decidable (m.Effective db stmt) := by
  unfold Migration.Effective
  split <;> infer_instance

/-- Every statement of every migration up to the version has taken effect. -/
def SchemaDb.Consistent (db : SchemaDb) : Prop :=
  ∀ m ∈ migrations, m.version ≤ db.userVersion → ∀ stmt ∈ m.statements, m.Effective db stmt

/-- The version is written only where all that the batch has left out had taken effect before. -/
def SkipsNothing : Fate → OpenState → Prop
  | .runs, ⟨db, .bump _ m skipped _⟩ => ∀ stmt ∈ skipped, m.Effective db stmt
  | _, _ => True

instance (fate : Fate) (s : OpenState) : Decidable (SkipsNothing fate s) := by
  unfold SkipsNothing
  split <;> infer_instance

/-! ## What a statement does -/

section Exec

variable {db db' : SchemaDb} {stmt stmt' : Statement} {m : Migration} {table column : String}

/-- What a statement that runs does: nothing, when what it would create is there, or it creates a
table, adds a column or resets the times. -/
inductive Ran (db : SchemaDb) : Statement → SchemaDb → Prop where
  | nothing (stmt : Statement) (htable : ∀ table columns, stmt = .createTable table columns →
      db.HasTable table) (hadd : ∀ table column, stmt ≠ .addColumn table column)
      (hreset : stmt ≠ .resetMtime) : Ran db stmt db
  | create (table : String) (columns : List String) (hnew : ¬ db.HasTable table) :
      Ran db (.createTable table columns) (db.setTable table columns)
  | add (table column : String) (columns : List String) (htable : db.tables table = some columns)
      (hnew : column ∉ columns) :
      Ran db (.addColumn table column)
        { db.setTable table (columns ++ [column]) with unreset := (table, column) :: db.unreset }
  | reset : Ran db .resetMtime { db with unreset := [] }

theorem ran_of_exec (h : stmt.exec db = .ok db') : Ran db stmt db' := by
  cases stmt <;> simp only [Statement.exec] at h
  case pragma =>
    cases h
    exact .nothing _ (by simp) (by simp) (by simp)
  case createTable table columns =>
    split at h
    · rename_i htable
      cases h
      refine .nothing _ ?_ (by simp) (by simp)
      rintro _ _ ⟨⟩
      exact htable
    · rename_i hnew
      cases h
      exact .create table columns hnew
  case addColumn table column =>
    split at h
    · cases h
    rename_i columns htable
    split at h
    · cases h
    rename_i hnew
    cases h
    exact .add table column columns htable hnew
  case resetMtime =>
    split at h <;> cases h
    exact .reset
  all_goals
    split at h <;> cases h
    exact .nothing _ (by simp) (by simp) (by simp)

/-- Every statement leaves the tables, with more columns at most. -/
theorem ran_tables (h : Ran db stmt db') {columns : List String}
    (htable : db.tables table = some columns) :
    ∃ columns', db'.tables table = some columns' ∧ columns ⊆ columns' := by
  cases h with
  | nothing => exact ⟨columns, htable, List.Subset.refl _⟩
  | create t cs hnew =>
    have hne : table ≠ t := by
      intro heq
      simp [SchemaDb.HasTable, ← heq, htable] at hnew
    exact ⟨columns, by simp [SchemaDb.setTable, hne, htable], List.Subset.refl _⟩
  | add t c cs ht _ =>
    by_cases heq : table = t
    · rw [heq, ht] at htable
      cases htable
      exact ⟨columns ++ [c], by simp [SchemaDb.setTable, heq], List.subset_append_left _ _⟩
    · exact ⟨columns, by simp [SchemaDb.setTable, heq, htable], List.Subset.refl _⟩
  | reset => exact ⟨columns, htable, List.Subset.refl _⟩

theorem ran_hasTable (h : Ran db stmt db') (htable : db.HasTable table) : db'.HasTable table := by
  obtain ⟨columns, hcolumns⟩ := Option.isSome_iff_exists.1 htable
  obtain ⟨columns', hcolumns', -⟩ := ran_tables h hcolumns
  exact Option.isSome_of_eq_some hcolumns'

theorem ran_hasColumn (h : Ran db stmt db') (hcolumn : db.HasColumn table column) :
    db'.HasColumn table column := by
  obtain ⟨columns, hcolumns, hmem⟩ := hcolumn
  obtain ⟨columns', hcolumns', hsub⟩ := ran_tables h hcolumns
  exact ⟨columns', hcolumns', hsub hmem⟩

theorem mem_added : (table, column) ∈ m.added ↔ .addColumn table column ∈ m.statements := by
  unfold Migration.added
  rw [List.mem_filterMap]
  constructor
  · rintro ⟨stmt, hmem, heq⟩
    split at heq <;> cases heq
    exact hmem
  · intro hmem
    exact ⟨_, hmem, rfl⟩

/-- The columns that are not reset are those before, and one that a statement has newly added. -/
theorem ran_unreset (h : Ran db stmt db') (hmem : (table, column) ∈ db'.unreset) :
    (table, column) ∈ db.unreset ∨
      stmt = .addColumn table column ∧ ¬ db.HasColumn table column := by
  cases h with
  | nothing => exact .inl hmem
  | create t cs _ => exact .inl hmem
  | add t c cs ht hnew =>
    rcases List.mem_cons.1 hmem with heq | hmem
    · cases heq
      refine .inr ⟨rfl, ?_⟩
      rintro ⟨cs', hcs', hc⟩
      rw [Option.mem_def, ht] at hcs'
      cases hcs'
      exact hnew hc
    · exact .inl hmem
  | reset => cases hmem

theorem ran_userVersion (h : Ran db stmt db') : db'.userVersion = db.userVersion := by
  cases h <;> rfl

/-- A statement that runs has taken effect. -/
theorem effective_of_ran (h : Ran db stmt db') : m.Effective db' stmt := by
  cases h with
  | nothing _ htable hadd hreset =>
    cases stmt with
    | createTable table columns => exact htable table columns rfl
    | addColumn table column => exact absurd rfl (hadd table column)
    | resetMtime => exact absurd rfl hreset
    | _ => trivial
  | create t cs _ =>
    show (Function.update db.tables t (some cs) t).isSome
    rw [Function.update_self]
    rfl
  | add t c cs _ _ => exact ⟨cs ++ [c], Function.update_self .., by simp⟩
  | reset => exact fun _ _ h => nomatch h

/-- What has taken effect stays so, a reset as long as the columns of its migration are there. -/
theorem ran_effective (h : Ran db stmt db') (heff : m.Effective db stmt')
    (hcolumns : stmt' = .resetMtime → ∀ table column, .addColumn table column ∈ m.statements →
      stmt = .addColumn table column → db.HasColumn table column) :
    m.Effective db' stmt' := by
  cases stmt' with
  | createTable table columns => exact ran_hasTable h heff
  | addColumn table column => exact ran_hasColumn h heff
  | resetMtime =>
    rintro ⟨table, column⟩ hmem hunreset
    rcases ran_unreset h hunreset with hunreset | ⟨hadd, hnew⟩
    · exact heff _ hmem hunreset
    · exact hnew (hcolumns rfl table column (mem_added.1 hmem) hadd)
  | _ => trivial

/-- A migration that has taken effect stays so. -/
theorem ran_all (h : Ran db stmt db') (heff : ∀ stmt' ∈ m.statements, m.Effective db stmt') :
    ∀ stmt' ∈ m.statements, m.Effective db' stmt' := fun stmt' hmem =>
  ran_effective h (heff stmt' hmem) fun _ _ _ hadd _ => heff _ hadd

theorem consistent_of_ran (h : Ran db stmt db') (hdb : db.Consistent) : db'.Consistent := by
  intro m hm hversion
  rw [ran_userVersion h] at hversion
  exact ran_all h (hdb m hm hversion)

end Exec

/-! ## Every run -/

section Runs

variable {s : OpenState} {db db' : SchemaDb} {m : Migration} {current : Int}

theorem migrations_sorted : migrations.Pairwise fun m m' => m.version < m'.version := by decide

def Statement.Adds : Statement → Prop
  | .addColumn _ _ => True
  | _ => False

instance (stmt : Statement) : Decidable stmt.Adds := by
  unfold Statement.Adds
  split <;> infer_instance

/-- No migration adds a column after a reset. -/
theorem reset_last : ∀ m ∈ migrations,
    m.statements.Pairwise fun stmt stmt' => stmt = .resetMtime → ¬ stmt'.Adds := by decide

/-- Before a migration come those whose versions are written already, and of its own batch what has
run has taken effect. -/
structure Reached (db : SchemaDb) (current : Int) (m : Migration) (rest : List Statement)
    (later : List Migration) : Prop where
  current_le : current ≤ db.userVersion
  pending : current < m.version
  before : ∃ before, migrations = before ++ m :: later ∧ ∀ m' ∈ before, m'.version ≤ db.userVersion
  ran : ∃ ran, m.statements = ran ++ rest ∧ ∀ stmt ∈ ran, m.Effective db stmt

def SchemaDb.At (db : SchemaDb) : Opening → Prop
  | .batch current m rest later | .bump current m rest later => Reached db current m rest later
  | _ => True

structure OpenState.Sound (s : OpenState) : Prop where
  consistent : s.db.Consistent
  at_opening : s.db.At s.opening

theorem at_nextMigration (hcurrent : current ≤ db.userVersion) (before : List Migration)
    {later : List Migration} (hsplit : migrations = before ++ later)
    (hbefore : ∀ m' ∈ before, m'.version ≤ db.userVersion) :
    db.At (nextMigration current later) := by
  induction later generalizing before with
  | nil => trivial
  | cons m later ih =>
    unfold nextMigration
    split
    · rename_i hdone
      refine ih (before ++ [m]) (by simp [hsplit]) fun m' hm' => ?_
      rcases List.mem_append.1 hm' with hm' | hm'
      · exact hbefore m' hm'
      · rw [List.mem_singleton.1 hm']
        omega
    · rename_i hpending
      exact ⟨hcurrent, by omega, ⟨before, hsplit, hbefore⟩, [], rfl, fun _ h => nomatch h⟩

theorem reached_ran {stmt : Statement} {rest : List Statement} {later : List Migration}
    (h : Reached db current m (stmt :: rest) later) (hran : Ran db stmt db') :
    Reached db' current m rest later := by
  obtain ⟨hcurrent, hpending, ⟨before, hsplit, hbefore⟩, ran, hstatements, heff⟩ := h
  have hversion := ran_userVersion hran
  refine ⟨hversion ▸ hcurrent, hpending, ⟨before, hsplit, hversion ▸ hbefore⟩, ran ++ [stmt],
    by simp [hstatements], fun stmt' hmem => ?_⟩
  rcases List.mem_append.1 hmem with hmem | hmem
  · refine ran_effective hran (heff stmt' hmem) fun hreset table column _ hadd => ?_
    -- no column is added after the reset
    have hlast := reset_last m (by simp [hsplit])
    rw [hstatements, List.pairwise_append] at hlast
    have hnot := hlast.2.2 stmt' hmem stmt (by simp) hreset
    rw [hadd] at hnot
    exact absurd trivial hnot
  · rw [List.mem_singleton.1 hmem]
    exact effective_of_ran hran

/-- The version is written when its migration has taken effect, with those before it. -/
theorem consistent_bump {skipped : List Statement} {later : List Migration}
    (h : Reached db current m skipped later) (hdb : db.Consistent)
    (hskipped : ∀ stmt ∈ skipped, m.Effective db stmt) :
    SchemaDb.Consistent { db with userVersion := m.version } := by
  obtain ⟨-, -, ⟨before, hsplit, hbefore⟩, ran, hstatements, heff⟩ := h
  have hsorted := migrations_sorted
  rw [hsplit, List.pairwise_append, List.pairwise_cons] at hsorted
  intro m' hm' hversion stmt hstmt
  rw [hsplit] at hm'
  rcases List.mem_append.1 hm' with hm' | hm'
  · exact hdb m' (by rw [hsplit]; exact List.mem_append_left _ hm') (hbefore m' hm') stmt hstmt
  rcases List.mem_cons.1 hm' with rfl | hm'
  · rw [hstatements] at hstmt
    rcases List.mem_append.1 hstmt with hstmt | hstmt
    · exact heff stmt hstmt
    · exact hskipped stmt hstmt
  · have hlater := hsorted.2.1.1 m' hm'
    exact absurd hversion (by simpa using hlater)

theorem at_bump {skipped : List Statement} {later : List Migration}
    (h : Reached db current m skipped later) :
    SchemaDb.At { db with userVersion := m.version } (nextMigration current later) := by
  obtain ⟨-, hpending, ⟨before, hsplit, -⟩, -⟩ := h
  have hsorted := migrations_sorted
  rw [hsplit, List.pairwise_append] at hsorted
  refine at_nextMigration (Int.le_of_lt hpending) (before ++ [m]) (by simp [hsplit])
    fun m' hm' => ?_
  rcases List.mem_append.1 hm' with hm' | hm'
  · exact Int.le_of_lt (hsorted.2.2 m' hm' m (by simp))
  · exact Int.le_of_eq (congrArg Migration.version (List.mem_singleton.1 hm'))

theorem sound_step {fate : Fate} (hs : s.Sound) (hskips : SkipsNothing fate s) :
    (openStep fate s).Sound := by
  obtain ⟨db, opening⟩ := s
  obtain ⟨hdb, hat⟩ := hs
  have hclosed : OpenState.Sound ⟨db, .closed⟩ := ⟨hdb, trivial⟩
  cases fate with
  | stops => exact hclosed
  | fails =>
    cases opening with
    | closed => exact hclosed
    | schema rest => cases rest <;> exact ⟨hdb, trivial⟩
    | readVersion => exact hclosed
    | batch current m rest later => cases rest <;> exact ⟨hdb, hat⟩
    | bump current m skipped later => exact hclosed
  | runs =>
    cases opening with
    | closed => exact ⟨hdb, trivial⟩
    | schema rest =>
      cases rest with
      | nil => exact ⟨hdb, trivial⟩
      | cons stmt rest =>
        simp only [openStep]
        split
        · rename_i hexec
          exact ⟨consistent_of_ran (ran_of_exec hexec) hdb, trivial⟩
        · exact hclosed
    | readVersion =>
      exact ⟨hdb, at_nextMigration (Int.le_refl _) [] rfl fun _ h => nomatch h⟩
    | batch current m rest later =>
      cases rest with
      | nil => exact ⟨hdb, hat⟩
      | cons stmt rest =>
        simp only [openStep]
        split
        · rename_i hexec
          exact ⟨consistent_of_ran (ran_of_exec hexec) hdb, reached_ran hat (ran_of_exec hexec)⟩
        · exact ⟨hdb, hat⟩
    | bump current m skipped later => exact ⟨consistent_bump hat hdb hskips, at_bump hat⟩

/-- Where the batch left something out that had not taken effect, the version that is written is
wrong. -/
theorem not_consistent_step {fate : Fate} (hs : s.Sound) (hskips : ¬ SkipsNothing fate s) :
    ¬ (openStep fate s).db.Consistent := by
  obtain ⟨db, opening⟩ := s
  intro hdb
  cases fate <;> cases opening <;> try exact hskips trivial
  rename_i current m skipped later
  obtain ⟨-, -, ⟨before, hsplit, -⟩, ran, hstatements, -⟩ : Reached db current m skipped later :=
    hs.at_opening
  refine hskips fun stmt hstmt => ?_
  exact hdb m (by simp [hsplit]) (Int.le_refl _) stmt (by simp [hstatements, hstmt])

/-- Over every sequence of opens, whatever statements fail and wherever opens stop. -/
theorem consistent_iff {db : SchemaDb} (hdb : db.Consistent) (fates : List Fate) :
    (∀ fs, fs <+: fates → (runAll openStep fs ⟨db, .closed⟩).db.Consistent) ↔
      Each openStep SkipsNothing fates ⟨db, .closed⟩ :=
  good_prefixes_iff (I := OpenState.Sound) (G := fun s => s.db.Consistent)
    (fun _ hs => hs.consistent) (fun _ _ hs _ hskips => sound_step hs hskips)
    (fun _ _ hs _ hskips => not_consistent_step hs hskips) ⟨hdb, trivial⟩ (each_true fates _)

/-- A file that is not there yet. -/
def SchemaDb.new : SchemaDb := ⟨fun _ => none, 0, []⟩

theorem consistent_new : SchemaDb.new.Consistent := by
  have hpos : ∀ m ∈ migrations, 0 < m.version := by decide
  intro m hm hversion
  exact absurd hversion (Int.not_le.2 (hpos m hm))

/-- The first open of a database brings it to the last version. -/
theorem consistent_iff_new :
    (runAll openStep (List.replicate 43 .runs) ⟨.new, .closed⟩).db.userVersion = 9 ∧
      (runAll openStep (List.replicate 43 .runs) ⟨.new, .closed⟩).db.Consistent :=
  ⟨by decide +kernel, (consistent_iff consistent_new _).2 (by decide +kernel) _ List.prefix_rfl⟩

/-- The first open stops after the first statement of the last migration, and the second one runs. -/
def stoppedOpen : List Fate := List.replicate 39 .runs ++ .stops :: List.replicate 17 .runs

/-- The last migration is marked as applied then, and two of its columns are not there. -/
theorem stoppedOpen_skips :
    ¬ ∀ db : SchemaDb, db.Consistent → ∀ fates,
      (runAll openStep fates ⟨db, .closed⟩).db.Consistent := by
  intro h
  have hlast : ⟨9, [.addColumn "playback_state" "node_type", .addColumn "playback_state" "device_id",
      .addColumn "playback_state" "disconnected_at"]⟩ ∈ migrations := by decide
  have hversion : 9 ≤ (runAll openStep stoppedOpen ⟨.new, .closed⟩).db.userVersion := by
    decide +kernel
  have hcolumn : SchemaDb.HasColumn (runAll openStep stoppedOpen ⟨.new, .closed⟩).db
      "playback_state" "device_id" :=
    h .new consistent_new stoppedOpen _ hlast hversion (.addColumn "playback_state" "device_id")
      (by decide)
  revert hcolumn
  decide +kernel

end Runs

end Kanade
