import Kanade.Db.Playlists
import Kanade.Sql.Select

/-!
# Kanade.Db.SmartPlaylists

`evaluate_smart_filter` of `repo.rs`: a filter is compiled to the text of a query and the values of its
placeholders.

* `SmartFilter.Holds`: what a filter means for a track.
* `smartSql_eq`: the text that is sent is that of a `Select`.
* `smart_filter_exact`: an answer to it are the tracks for which the filter holds.
-/

namespace Kanade

open Sql

/-! ## The query -/

def smartFieldColumn : SmartField → String
  | .title => "title"
  | .artist => "artist"
  | .albumArtist => "album_artist"
  | .album => "album_title"
  | .composer => "composer"
  | .genre => "genre"

def escapeLike (s : String) : String :=
  s.toList.foldl
    (fun out ch =>
      if ch = '\\' ∨ ch = '%' ∨ ch = '_' then (out.push '\\').push ch else out.push ch) ""

def SmartOperator.sqlOp : SmartOperator → String
  | .equals => "="
  | .notEquals => "!="
  | .contains | .startsWith | .endsWith => "LIKE"
  | .notContains => "NOT LIKE"

def SmartOperator.escapeClause : SmartOperator → String
  | .contains | .notContains | .startsWith | .endsWith => " ESCAPE '\\'"
  | .equals | .notEquals => ""

def SmartCondition.bindValue (cond : SmartCondition) : String :=
  match cond.op with
  | .equals | .notEquals => cond.value
  | .contains | .notContains => "%" ++ escapeLike cond.value ++ "%"
  | .startsWith => escapeLike cond.value ++ "%"
  | .endsWith => "%" ++ escapeLike cond.value

def SmartCondition.wherePart (cond : SmartCondition) : String :=
  "(" ++ smartFieldColumn cond.field ++ " IS NOT NULL AND " ++ smartFieldColumn cond.field ++ " " ++
    cond.op.sqlOp ++ " ?" ++ cond.op.escapeClause ++ ")"

def MatchMode.joiner : MatchMode → String
  | .all => " AND "
  | .any => " OR "

def orderClause : Option SmartSort → String
  | some .title => "ORDER BY title COLLATE NOCASE"
  | some .artist => "ORDER BY artist COLLATE NOCASE, album_title, disc_number, track_number"
  | some .album => "ORDER BY album_title COLLATE NOCASE, disc_number, track_number"
  | some .genre => "ORDER BY genre COLLATE NOCASE, artist, album_title, disc_number, track_number"
  | none => "ORDER BY artist, album_title, disc_number, track_number, title"

def limitClause : Option UInt32 → String
  | some n => " LIMIT " ++ toString n
  | none => ""

def smartColumns : String :=
  "file_path, id, title, track_number, disc_number, duration_secs,\n                      " ++
    "format, sample_rate, artist, album_artist, album_title, composer, genre, album_id"

def smartSql (filter : SmartFilter) (sortBy : Option SmartSort) (limit : Option UInt32) : String :=
  "SELECT " ++ smartColumns ++ "\n               FROM tracks\n               WHERE " ++
    joinWith filter.matchMode.joiner (filter.conditions.map SmartCondition.wherePart) ++
    "\n               " ++ orderClause sortBy ++ limitClause limit

/-- SQLite is given a text and the values of its placeholders, and answers from the rows of `tracks`. -/
abbrev TracksQuery : Type := String → List String → List TrackRow → Except String (List TrackRow)

def evaluateSmartFilter (sqlite : TracksQuery) (filter : SmartFilter) (sortBy : Option SmartSort)
    (limit : Option UInt32) (db : LibraryDb) : Except String (List Track) :=
  if filter.conditions = [] then .ok []
  else do
    let rows ← sqlite (smartSql filter sortBy limit) (filter.conditions.map SmartCondition.bindValue)
      db.tracks.rows
    .ok (rows.map TrackRow.track)

/-! ## What it means -/

def SmartField.of (track : Track) : SmartField → Option String
  | .title => track.title
  | .artist => track.artist
  | .albumArtist => track.albumArtist
  | .album => track.albumTitle
  | .composer => track.composer
  | .genre => track.genre

/-- Letters of ASCII in one case. -/
def folded (s : String) : List Char := s.toList.map Char.toLower

def SmartOperator.Compares (op : SmartOperator) (s value : String) : Prop :=
  match op with
  | .equals => s = value
  | .notEquals => s ≠ value
  | .contains => folded value <:+: folded s
  | .notContains => ¬ folded value <:+: folded s
  | .startsWith => folded value <+: folded s
  | .endsWith => folded value <:+ folded s

instance (op : SmartOperator) (s value : String) : Decidable (op.Compares s value) :=
  match op with
  | .equals => inferInstanceAs (Decidable (s = value))
  | .notEquals => inferInstanceAs (Decidable (s ≠ value))
  | .contains => inferInstanceAs (Decidable (folded value <:+: folded s))
  | .notContains => inferInstanceAs (Decidable (¬ folded value <:+: folded s))
  | .startsWith => inferInstanceAs (Decidable (folded value <+: folded s))
  | .endsWith => inferInstanceAs (Decidable (folded value <:+ folded s))

/-- A field that a track does not have meets no condition. -/
def SmartCondition.Holds (cond : SmartCondition) (track : Track) : Prop :=
  ∃ s ∈ cond.field.of track, cond.op.Compares s cond.value

instance (cond : SmartCondition) (track : Track) : Decidable (cond.Holds track) :=
  inferInstanceAs (Decidable (∃ s ∈ cond.field.of track, _))

def SmartFilter.Holds : SmartFilter → Track → Prop
  | ⟨.all, conditions⟩, track => ∀ cond ∈ conditions, cond.Holds track
  | ⟨.any, conditions⟩, track => ∃ cond ∈ conditions, cond.Holds track

instance : (filter : SmartFilter) → (track : Track) → Decidable (filter.Holds track)
  | ⟨.all, conditions⟩, track => inferInstanceAs (Decidable (∀ cond ∈ conditions, cond.Holds track))
  | ⟨.any, conditions⟩, track => inferInstanceAs (Decidable (∃ cond ∈ conditions, cond.Holds track))

/-! ## The statement -/

def trackColumns : Columns TrackRow where
  text row column :=
    match column with
    | "title" => row.track.title
    | "artist" => row.track.artist
    | "album_artist" => row.track.albumArtist
    | "album_title" => row.track.albumTitle
    | "composer" => row.track.composer
    | "genre" => row.track.genre
    | _ => none
  integer row column :=
    match column with
    | "track_number" => row.track.trackNumber.map UInt32.toNat
    | "disc_number" => row.track.discNumber.map UInt32.toNat
    | _ => none

def SmartOperator.comparison : SmartOperator → Comparison
  | .equals => .eq
  | .notEquals => .ne
  | .contains | .startsWith | .endsWith => .like '\\'
  | .notContains => .notLike '\\'

def SmartCondition.expr (cond : SmartCondition) : Expr :=
  .paren (.and (.isNotNull (smartFieldColumn cond.field))
    (.compare (smartFieldColumn cond.field) cond.op.comparison))

def smartOrder : Option SmartSort → List OrderTerm
  | some .title => [.text "title" true]
  | some .artist =>
    [.text "artist" true, .text "album_title" false, .integer "disc_number", .integer "track_number"]
  | some .album => [.text "album_title" true, .integer "disc_number", .integer "track_number"]
  | some .genre =>
    [.text "genre" true, .text "artist" false, .text "album_title" false, .integer "disc_number",
      .integer "track_number"]
  | none =>
    [.text "artist" false, .text "album_title" false, .integer "disc_number",
      .integer "track_number", .text "title" false]

/-- The statement of a filter with the conditions `first :: rest`. -/
def smartSelect (mode : MatchMode) (first : SmartCondition) (rest : List SmartCondition)
    (sortBy : Option SmartSort) (limit : Option UInt32) : Select where
  columns := smartColumns
  table := "tracks"
  condition := .joined (mode = .all) first.expr (rest.map SmartCondition.expr)
  order := smartOrder sortBy
  limit := limit.map UInt32.toNat

section Statement

variable {mode : MatchMode} {first : SmartCondition} {rest : List SmartCondition}
  {sortBy : Option SmartSort} {limit : Option UInt32}

theorem text_expr (cond : SmartCondition) : cond.expr.text = cond.wherePart := by
  have hkeyword : cond.op.comparison.keyword = cond.op.sqlOp := by cases cond.op <;> rfl
  have hclause : cond.op.comparison.clause = cond.op.escapeClause := by cases cond.op <;> rfl
  simp only [SmartCondition.expr, SmartCondition.wherePart, Expr.text, hkeyword, hclause,
    String.append_assoc]
  rfl

theorem orderClause_eq (sortBy : Option SmartSort) :
    orderClause sortBy = "ORDER BY " ++ joinWith ", " ((smartOrder sortBy).map OrderTerm.sql) := by
  cases sortBy with
  | none => decide
  | some sort => cases sort <;> decide

theorem limitClause_eq (limit : Option UInt32) :
    limitClause limit = Select.limitText (limit.map UInt32.toNat) := by
  cases limit <;> rfl

theorem smartSql_eq : smartSql ⟨mode, first :: rest⟩ sortBy limit =
    (smartSelect mode first rest sortBy limit).text := by
  have hparts : (first :: rest).map SmartCondition.wherePart =
      first.expr.text :: (rest.map SmartCondition.expr).map Expr.text := by
    rw [List.map_cons, List.map_map, text_expr]
    exact congrArg (_ :: ·) (List.map_congr_left fun cond _ => (text_expr cond).symm)
  have hjoiner : mode.joiner = if decide (mode = .all) = true then " AND " else " OR " := by
    cases mode <;> rfl
  have hfrom : "\n               FROM tracks\n               WHERE " =
      "\n               FROM " ++ "tracks" ++ "\n               WHERE " := by decide
  have horder : "\n               ORDER BY " = "\n               " ++ "ORDER BY " := by decide
  unfold smartSql Select.text smartSelect
  rw [hparts, hjoiner, orderClause_eq, limitClause_eq, Expr.text_joined, hfrom, horder]
  simp only [String.append_assoc]

theorem grouped_smartSelect : (smartSelect mode first rest sortBy limit).condition.Grouped := by
  have hexpr : ∀ cond : SmartCondition, cond.expr.Grouped ∧ cond.expr.level = 2 := fun cond =>
    ⟨⟨trivial, trivial, Nat.le_succ 1, Nat.le_refl 2⟩, rfl⟩
  refine Expr.grouped_joined (hexpr first) fun e he => ?_
  obtain ⟨cond, -, rfl⟩ := List.mem_map.1 he
  exact hexpr cond

theorem placeholders_smartSelect :
    ((first :: rest).map SmartCondition.bindValue).length =
      (smartSelect mode first rest sortBy limit).condition.placeholders := by
  rw [smartSelect, Expr.placeholders_joined rfl, List.length_map, List.length_map, List.length_cons]
  intro e he
  obtain ⟨cond, -, rfl⟩ := List.mem_map.1 he
  rfl

end Statement

/-! ## What the patterns match -/

section Patterns

variable {v s : String}

theorem toList_escapeLike (v : String) : (escapeLike v).toList =
    v.toList.flatMap fun ch =>
      if ch = '\\' ∨ ch = '%' ∨ ch = '_' then ['\\', ch] else [ch] := by
  have hout : ∀ (chars : List Char) (out : String),
      (chars.foldl (fun out ch =>
        if ch = '\\' ∨ ch = '%' ∨ ch = '_' then (out.push '\\').push ch else out.push ch) out).toList =
      out.toList ++ chars.flatMap fun ch =>
        if ch = '\\' ∨ ch = '%' ∨ ch = '_' then ['\\', ch] else [ch] := by
    intro chars
    induction chars with
    | nil => intro out; simp
    | cons ch chars ih =>
      intro out
      rw [List.foldl_cons, ih, List.flatMap_cons]
      split
      · simp [String.toList_push]
      · simp [String.toList_push]
  exact (hout v.toList "").trans (List.nil_append _)

/-- The escaped text is the pattern that asks for its characters. -/
theorem wilds_escapeLike (v : String) (p : List Char) :
    wilds '\\' ((escapeLike v).toList ++ p) =
      (wilds '\\' p).map fun w => v.toList.map Wild.only ++ w := by
  rw [toList_escapeLike]
  induction v.toList with
  | nil => simp
  | cons c v ih =>
    rw [List.flatMap_cons, List.append_assoc]
    by_cases hc : c = '\\' ∨ c = '%' ∨ c = '_'
    · rw [if_pos hc]
      rw [List.cons_append, List.cons_append, List.nil_append, wilds_escaped, ih, Option.map_map]
      rfl
    · rw [if_neg hc]
      obtain ⟨hescape, hany, hone⟩ := not_or.1 hc |>.imp_right not_or.1
      have hwild : wild c = .only c := by rw [wild, if_neg hany, if_neg hone]
      rw [List.cons_append, List.nil_append, wilds_cons hescape, ih, Option.map_map, hwild]
      rfl

theorem like_of_wilds {pattern : String} {w : List Wild} (hw : wilds '\\' pattern.toList = some w) :
    like '\\' s pattern = true ↔ covers w s.toList := by
  rw [like, hw]
  rfl

/-- A part of the folded text is the folded part of the text. -/
theorem exists_split {s : List Char} {u v t : List Char} :
    s.map Char.toLower = u ++ v ++ t →
      ∃ a b c, s = a ++ b ++ c ∧ b.map Char.toLower = v ∧ (u = [] → a = []) ∧ (t = [] → c = []) := by
  intro h
  obtain ⟨ab, c, rfl, hab, hc⟩ := List.map_eq_append_iff.1 h
  obtain ⟨a, b, rfl, ha, hb⟩ := List.map_eq_append_iff.1 hab
  exact ⟨a, b, c, rfl, hb, fun hu => List.map_eq_nil_iff.1 (ha.trans hu),
    fun ht => List.map_eq_nil_iff.1 (hc.trans ht)⟩

theorem like_contains : like '\\' s ("%" ++ escapeLike v ++ "%") = true ↔ folded v <:+: folded s := by
  have hw : wilds '\\' ("%" ++ escapeLike v ++ "%").toList =
      some (.any :: (v.toList.map Wild.only ++ [.any])) := by
    rw [String.toList_append, String.toList_append, List.append_assoc]
    refine (wilds_cons (p := (escapeLike v).toList ++ ['%']) (by decide)).trans ?_
    rw [wilds_escapeLike]
    rfl
  rw [like_of_wilds hw, covers_any]
  constructor
  · rintro ⟨a, bc, hs, h⟩
    obtain ⟨b, c, rfl, hb, -⟩ := covers_only.1 h
    exact ⟨a.map Char.toLower, c.map Char.toLower, by
      rw [folded, folded, hs, ← hb, List.map_append, List.map_append, List.append_assoc]⟩
  · rintro ⟨u, t, h⟩
    obtain ⟨a, b, c, hs, hb, -, -⟩ := exists_split h.symm
    rw [List.append_assoc] at hs
    exact ⟨a, b ++ c, hs, covers_only.2 ⟨b, c, rfl, hb, covers_any_end⟩⟩

theorem like_startsWith : like '\\' s (escapeLike v ++ "%") = true ↔ folded v <+: folded s := by
  have hw : wilds '\\' (escapeLike v ++ "%").toList = some (v.toList.map Wild.only ++ [.any]) := by
    rw [String.toList_append, wilds_escapeLike]
    rfl
  rw [like_of_wilds hw, covers_only]
  constructor
  · rintro ⟨b, c, hs, hb, -⟩
    exact ⟨c.map Char.toLower, by rw [folded, folded, hs, ← hb, List.map_append]⟩
  · rintro ⟨t, h⟩
    obtain ⟨a, b, c, hs, hb, ha, -⟩ := exists_split (u := []) h.symm
    rw [ha rfl, List.nil_append] at hs
    exact ⟨b, c, hs, hb, covers_any_end⟩

theorem like_endsWith : like '\\' s ("%" ++ escapeLike v) = true ↔ folded v <:+ folded s := by
  have hw : wilds '\\' ("%" ++ escapeLike v).toList = some (.any :: (v.toList.map Wild.only ++ [])) := by
    rw [String.toList_append]
    refine (wilds_cons (p := (escapeLike v).toList) (by decide)).trans ?_
    rw [← List.append_nil (escapeLike v).toList, wilds_escapeLike]
    rfl
  rw [like_of_wilds hw, covers_any]
  constructor
  · rintro ⟨a, bc, hs, h⟩
    obtain ⟨b, c, rfl, hb, hc⟩ := covers_only.1 h
    rw [covers_nil] at hc
    exact ⟨a.map Char.toLower, by
      rw [folded, folded, hs, ← hb, hc, List.append_nil, List.map_append]⟩
  · rintro ⟨u, h⟩
    obtain ⟨a, b, c, hs, hb, -, hc⟩ := exists_split (t := []) (h.symm.trans (List.append_nil _).symm)
    rw [hc rfl, List.append_nil] at hs
    exact ⟨a, b, hs, covers_only.2 ⟨b, [], (List.append_nil b).symm, hb, rfl⟩⟩

/-- An operator on its bound value is what it says on the value of the condition. -/
theorem holds_comparison (cond : SmartCondition) :
    cond.op.comparison.holds s cond.bindValue = true ↔ cond.op.Compares s cond.value := by
  obtain ⟨field, op, value⟩ := cond
  cases op with
  | equals => exact beq_iff_eq
  | notEquals => exact bne_iff_ne
  | contains => exact like_contains
  | notContains =>
    refine (Bool.not_eq_true' _).to_iff.trans ?_
    rw [← Bool.not_eq_true]
    exact not_congr like_contains
  | startsWith => exact like_startsWith
  | endsWith => exact like_endsWith

end Patterns

/-! ## The answer -/

theorem text_trackColumns (row : TrackRow) (field : SmartField) :
    trackColumns.text row (smartFieldColumn field) = field.of row.track := by
  cases field <;> rfl

theorem not_mem_bindValue {cond : SmartCondition} (h : '\x00' ∉ cond.value.toList) :
    '\x00' ∉ cond.bindValue.toList := by
  have hescaped : '\x00' ∉ (escapeLike cond.value).toList := by
    rw [toList_escapeLike, List.mem_flatMap]
    rintro ⟨ch, hch, hmem⟩
    split at hmem
    · rcases List.mem_pair.1 hmem with hmem | rfl
      · exact absurd hmem (by decide)
      · exact h hch
    · rw [List.mem_singleton] at hmem
      exact h (hmem ▸ hch)
  have hany : '\x00' ∉ "%".toList := by decide
  obtain ⟨field, op, value⟩ := cond
  have hsurrounded : '\x00' ∉ ("%" ++ escapeLike value ++ "%").toList := by
    rw [String.toList_append, String.toList_append, List.mem_append, List.mem_append]
    exact not_or.2 ⟨not_or.2 ⟨hany, hescaped⟩, hany⟩
  cases op with
  | equals | notEquals => exact h
  | contains | notContains => exact hsurrounded
  | startsWith =>
    rw [SmartCondition.bindValue, String.toList_append, List.mem_append]
    exact not_or.2 ⟨hescaped, hany⟩
  | endsWith =>
    rw [SmartCondition.bindValue, String.toList_append, List.mem_append]
    exact not_or.2 ⟨hany, hescaped⟩

/-- A condition takes its own value, and is never unknown. -/
theorem eval_expr (cond : SmartCondition) (row : TrackRow) (vs : List String) :
    cond.expr.eval (trackColumns.text row) (cond.bindValue :: vs) =
      (some (decide (cond.Holds row.track)), vs) := by
  simp only [SmartCondition.expr, Expr.eval, text_trackColumns]
  cases hs : cond.field.of row.track with
  | none =>
    have hnot : ¬ cond.Holds row.track := by
      rintro ⟨s, hmem, -⟩
      rw [hs] at hmem
      cases hmem
    rw [decide_eq_false hnot]
    rfl
  | some s =>
    have hholds : cond.Holds row.track ↔ cond.op.Compares s cond.value := by
      constructor
      · rintro ⟨t, ht, h⟩
        rw [hs, Option.mem_some] at ht
        exact ht ▸ h
      · intro h
        exact ⟨s, hs, h⟩
    have hbool : cond.op.comparison.holds s cond.bindValue = decide (cond.Holds row.track) := by
      rw [Bool.eq_iff_iff, holds_comparison, decide_eq_true_iff, hholds]
    rw [Option.map_some, hbool, Option.isSome_some, Expr.and3_true]

/-- What SQLite documents of a statement whose text groups as its condition does, with one value for each
placeholder and no NUL in any. -/
def TracksQuery.Answers (sqlite : TracksQuery) (q : Select) (rows : List TrackRow)
    (values : List String) : Prop :=
  q.condition.Grouped → values.length = q.condition.placeholders →
    (∀ v ∈ values, '\x00' ∉ v.toList) →
      ∃ result, sqlite q.text values rows = .ok result ∧ q.Answers trackColumns values rows result

section Answer

variable {sqlite : TracksQuery} {mode : MatchMode} {first : SmartCondition} {rest : List SmartCondition}
  {sortBy : Option SmartSort} {limit : Option UInt32} {db : LibraryDb}

theorem holds_cons (mode : MatchMode) (track : Track) :
    (⟨mode, first :: rest⟩ : SmartFilter).Holds track ↔
      Expr.joinedValue (mode = .all) (first.Holds track)
        (rest.map fun cond => decide (cond.Holds track)) = true := by
  rw [Expr.joinedValue_eq]
  cases mode with
  | all => simp [SmartFilter.Holds]
  | any => simp [SmartFilter.Holds]

/-- The condition of the statement is true of a row exactly if the filter holds. -/
theorem eval_smartSelect (row : TrackRow) :
    ((smartSelect mode first rest sortBy limit).condition.eval (trackColumns.text row)
        ((first :: rest).map SmartCondition.bindValue)).1 = some true ↔
      (⟨mode, first :: rest⟩ : SmartFilter).Holds row.track := by
  have hfirst := eval_expr first row (rest.map SmartCondition.bindValue)
  rw [smartSelect, List.map_cons, Expr.eval_joined (fun cond _ vs => eval_expr cond row vs) hfirst,
    Option.some.injEq, holds_cons]

/-- The tracks of an answer are those for which the filter holds, in order, and the first of them if there
is a limit. -/
theorem smart_filter_exact (hnul : ∀ cond ∈ first :: rest, '\x00' ∉ cond.value.toList)
    (hsqlite : sqlite.Answers (smartSelect mode first rest sortBy limit) db.tracks.rows
      ((first :: rest).map SmartCondition.bindValue)) :
    ∃ sorted : List TrackRow,
      sorted.Perm (db.tracks.rows.filter fun row =>
          (⟨mode, first :: rest⟩ : SmartFilter).Holds row.track) ∧
        sorted.Pairwise (fun row row' => rowOrder trackColumns (smartOrder sortBy) row row' ≠ .gt) ∧
        evaluateSmartFilter sqlite ⟨mode, first :: rest⟩ sortBy limit db =
          .ok ((limit.elim sorted fun n => sorted.take n.toNat).map TrackRow.track) := by
  have hvalues : ∀ v ∈ (first :: rest).map SmartCondition.bindValue, '\x00' ∉ v.toList := by
    intro v hv
    obtain ⟨cond, hcond, rfl⟩ := List.mem_map.1 hv
    exact not_mem_bindValue (hnul cond hcond)
  obtain ⟨result, hresult, sorted, hperm, hsorted, rfl⟩ :=
    hsqlite grouped_smartSelect placeholders_smartSelect hvalues
  refine ⟨sorted, ?_, hsorted, ?_⟩
  · simpa only [eval_smartSelect] using hperm
  · rw [evaluateSmartFilter, if_neg (List.cons_ne_nil _ _), smartSql_eq, hresult]
    cases limit <;> rfl

def percentDb : LibraryDb where
  albums := ⟨[], by decide⟩
  tracks := ⟨[⟨{ id := "1", filePath := "/m/a/01.flac", title := some "100% Pure" }, none⟩,
    ⟨{ id := "2", filePath := "/m/a/02.flac", title := some "100 Pure" }, none⟩], by decide⟩
  playlists := ⟨[], by decide⟩
  playlistTracks := ⟨[], by decide⟩
  dirPaths_nodup := by decide
  trackIds_nodup := by decide
  albums_of_tracks := by decide
  playlists_of_tracks := by decide
  playlistTracks_le := Nat.zero_le _

def percentSqlite : TracksQuery := fun _ _ rows =>
  .ok (rows.filter fun row => row.track.title = some "100% Pure")

/-- "100%" is looked for as it is written: there is no other text to be found with it. -/
theorem smart_filter_exact_percent : ∃ sorted : List TrackRow,
    sorted.Perm (percentDb.tracks.rows.filter fun row =>
        (⟨.all, [⟨.title, .contains, "100%"⟩]⟩ : SmartFilter).Holds row.track) ∧
      sorted.Pairwise (fun row row' => rowOrder trackColumns (smartOrder none) row row' ≠ .gt) ∧
      evaluateSmartFilter percentSqlite ⟨.all, [⟨.title, .contains, "100%"⟩]⟩ none (some 5) percentDb =
        .ok (((some (5 : UInt32)).elim sorted fun n => sorted.take n.toNat).map TrackRow.track) :=
  smart_filter_exact (by decide)
    fun _ _ _ => ⟨_, rfl, percentDb.tracks.rows.take 1, by decide +kernel, by decide +kernel, rfl⟩

end Answer

end Kanade
