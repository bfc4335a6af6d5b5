import Mathlib.Data.List.Nodup
import Kanade.Files.Path

/-!
# Files.Walk

A walk through a directory tree, in the order in which the directories are read, that stays out of some
directories and does not follow links.

* `Item`: a tree; a directory has its entries in the order of reading.
* `Item.walk`: the files found, by their names from the root on. `mem_walk`: they are those with no
  directory on the way that the walk stays out of. `nodup_walk`: none is found twice.
* `under`: the text of a path below a root. `under_injective`: different names have different texts.
-/

namespace Files

inductive Item (β : Type) where
  | file (content : β)
  | dir (items : List (String × Item β))
  /-- A directory that cannot be read. -/
  | unreadable
  /-- A link, or anything else. -/
  | other

namespace Item

variable {β : Type}

def isDir : Item β → Bool
  | .dir _ | .unreadable => true
  | _ => false

mutual

/-- The root itself is always entered. -/
def walk (enter : String → Bool) (path : List String) : Item β → List (List String × β)
  | .file b => [(path, b)]
  | .dir items => walkItems enter path items
  | .unreadable => []
  | .other => []
termination_by structural item => item

def walkItems (enter : String → Bool) (path : List String) :
    List (String × Item β) → List (List String × β)
  | [] => []
  | (name, item) :: rest =>
    (if item.isDir && !enter name then [] else item.walk enter (path ++ [name])) ++ walkItems enter path rest
termination_by structural items => items

end

/-- The names lead to the item. -/
inductive At : Item β → List String → Item β → Prop
  | here (item : Item β) : At item [] item
  | child {items : List (String × Item β)} {name : String} {item x : Item β} {names : List String}
      (hmem : (name, item) ∈ items) (hat : At item names x) : At (.dir items) (name :: names) x

/-- The walk enters all directories on the way to a file. -/
def Open (enter : String → Bool) (names : List String) : Prop := ∀ name ∈ names.dropLast, enter name = true

mutual

/-- The entries of each directory have names of their own. -/
def WellNamed : Item β → Prop
  | .file _ => True
  | .dir items => (items.map Prod.fst).Nodup ∧ (∀ name ∈ items.map Prod.fst, IsName name) ∧ WellNamedItems items
  | .unreadable => True
  | .other => True
termination_by structural item => item

def WellNamedItems : List (String × Item β) → Prop
  | [] => True
  | (_, item) :: rest => item.WellNamed ∧ WellNamedItems rest
termination_by structural items => items

end

section Walk

variable {enter : String → Bool} {path names : List String} {item child : Item β}
  {items : List (String × Item β)} {name : String} {b : β}

theorem isDir_of_at (h : At item (name :: names) child) : item.isDir = true := by
  cases h with
  | child hmem hat => rfl

theorem open_cons : Open enter (name :: names) ↔ (names ≠ [] → enter name = true) ∧ Open enter names := by
  unfold Open
  cases names with
  | nil => simp
  | cons n rest => simp [List.dropLast_cons_of_ne_nil]

/-- The files below an entry that is walked. -/
theorem mem_entry (hwalk : ∀ path q, q ∈ item.walk enter path ↔
      ∃ names, q.1 = path ++ names ∧ At item names (.file q.2) ∧ Open enter names) {q : List String × β} :
    q ∈ (if item.isDir && !enter name then [] else item.walk enter (path ++ [name])) ↔
      ∃ names, q.1 = path ++ name :: names ∧ At item names (.file q.2) ∧ Open enter (name :: names) := by
  have hpath : ∀ names, path ++ [name] ++ names = path ++ name :: names := by
    intro names
    rw [List.append_assoc, List.singleton_append]
  split
  · rename_i hout
    simp only [Bool.and_eq_true, Bool.not_eq_true'] at hout
    refine iff_of_false (List.not_mem_nil) ?_
    intro h
    obtain ⟨names, -, hat, hopen⟩ := h
    cases names with
    | nil =>
      cases hat
      cases hout.1
    | cons n rest =>
      have henter := (open_cons.1 hopen).1 (List.cons_ne_nil _ _)
      rw [hout.2] at henter
      cases henter
  · rename_i hin
    rw [hwalk]
    constructor
    · intro ⟨names, hq, hat, hopen⟩
      refine ⟨names, hq.trans (hpath names), hat, open_cons.2 ⟨fun hne => ?_, hopen⟩⟩
      cases names with
      | nil => exact absurd rfl hne
      | cons n rest =>
        have hdir := isDir_of_at hat
        simpa [hdir] using hin
    · intro ⟨names, hq, hat, hopen⟩
      exact ⟨names, hq.trans (hpath names).symm, hat, (open_cons.1 hopen).2⟩

mutual

theorem mem_walk (item : Item β) (path : List String) (q : List String × β) :
    q ∈ item.walk enter path ↔
      ∃ names, q.1 = path ++ names ∧ At item names (.file q.2) ∧ Open enter names := by
  cases item with
  | file b =>
    rw [walk, List.mem_singleton]
    constructor
    · intro hq
      subst hq
      exact ⟨[], (List.append_nil path).symm, .here _, fun _ h => by cases h⟩
    · intro h
      obtain ⟨names, hq, hat, -⟩ := h
      obtain ⟨p, b'⟩ := q
      cases hat
      rw [List.append_nil] at hq
      rw [← hq]
  | dir items =>
    rw [walk, mem_walkItems items path q]
    constructor
    · intro ⟨name, item, names, hmem, hq, hat, hopen⟩
      exact ⟨name :: names, hq, .child hmem hat, hopen⟩
    · intro ⟨names, hq, hat, hopen⟩
      cases hat with
      | child hmem hat => exact ⟨_, _, _, hmem, hq, hat, hopen⟩
  | unreadable =>
    rw [walk]
    refine iff_of_false (List.not_mem_nil) ?_
    intro h
    obtain ⟨names, -, hat, -⟩ := h
    cases hat
  | other =>
    rw [walk]
    refine iff_of_false (List.not_mem_nil) ?_
    intro h
    obtain ⟨names, -, hat, -⟩ := h
    cases hat
termination_by structural item

theorem mem_walkItems (items : List (String × Item β)) (path : List String) (q : List String × β) :
    q ∈ walkItems enter path items ↔
      ∃ name item names, (name, item) ∈ items ∧ q.1 = path ++ name :: names ∧ At item names (.file q.2) ∧
        Open enter (name :: names) := by
  cases items with
  | nil =>
    rw [walkItems]
    refine iff_of_false (List.not_mem_nil) ?_
    intro h
    obtain ⟨name, item, names, hmem, -⟩ := h
    cases hmem
  | cons entry rest =>
    obtain ⟨name, item⟩ := entry
    rw [walkItems, List.mem_append, mem_entry (mem_walk item), mem_walkItems rest path q]
    constructor
    · intro h
      rcases h with ⟨names, h⟩ | ⟨name', item', names, hmem, h⟩
      · exact ⟨name, item, names, List.mem_cons_self, h⟩
      · exact ⟨name', item', names, List.mem_cons_of_mem _ hmem, h⟩
    · intro ⟨name', item', names, hmem, h⟩
      rcases List.mem_cons.1 hmem with heq | hmem
      · cases heq
        exact .inl ⟨names, h⟩
      · exact .inr ⟨name', item', names, hmem, h⟩
termination_by structural items

end

mutual

theorem nodup_walk (item : Item β) (path : List String) (h : item.WellNamed) :
    ((item.walk enter path).map Prod.fst).Nodup := by
  cases item with
  | file b => exact List.nodup_singleton _
  | dir items =>
    rw [WellNamed] at h
    rw [walk]
    exact nodup_walkItems items path h.1 h.2.2
  | unreadable => exact List.nodup_nil
  | other => exact List.nodup_nil
termination_by structural item

theorem nodup_walkItems (items : List (String × Item β)) (path : List String)
    (hnames : (items.map Prod.fst).Nodup) (h : WellNamedItems items) :
    ((walkItems enter path items).map Prod.fst).Nodup := by
  cases items with
  | nil => exact List.nodup_nil
  | cons entry rest =>
    obtain ⟨name, item⟩ := entry
    rw [WellNamedItems] at h
    rw [List.map_cons, List.nodup_cons] at hnames
    have hentry : ((if item.isDir && !enter name then [] else item.walk enter (path ++ [name])).map
        Prod.fst).Nodup := by
      split
      · exact List.nodup_nil
      · exact nodup_walk item (path ++ [name]) h.1
    rw [walkItems, List.map_append]
    refine List.Nodup.append hentry (nodup_walkItems rest path hnames.2 h.2) ?_
    intro p hp hp'
    obtain ⟨q, hq, rfl⟩ := List.mem_map.1 hp
    obtain ⟨q', hq', heq⟩ := List.mem_map.1 hp'
    obtain ⟨names, hnames', -⟩ := (mem_entry (mem_walk item)).1 hq
    obtain ⟨name', item', names', hmem, hnames'', -⟩ := (mem_walkItems rest path q').1 hq'
    rw [hnames', hnames''] at heq
    -- the first names behind `path` differ
    have hname : name' = name := (List.cons.inj (List.append_cancel_left heq)).1
    rw [← hname] at hnames
    exact hnames.1 (List.mem_map.2 ⟨_, hmem, rfl⟩)
termination_by structural items

end

theorem isName_of_mem {item : Item β} (hmem : (name, item) ∈ items) (h : (Item.dir items).WellNamed) :
    IsName name ∧ item.WellNamed := by
  rw [WellNamed] at h
  refine ⟨h.2.1 name (List.mem_map_of_mem hmem), ?_⟩
  have hitems := h.2.2
  clear h
  induction items with
  | nil => cases hmem
  | cons entry rest ih =>
    rw [WellNamedItems] at hitems
    rcases List.mem_cons.1 hmem with heq | hmem
    · subst heq
      exact hitems.1
    · exact ih hmem hitems.2

theorem isName_of_at (h : At item names child) (hnamed : item.WellNamed) : ∀ name ∈ names, IsName name := by
  induction h with
  | here item =>
    intro name hname
    cases hname
  | child hmem hat ih =>
    obtain ⟨hname, hitem⟩ := isName_of_mem hmem hnamed
    intro n hn
    rcases List.mem_cons.1 hn with rfl | hn
    · exact hname
    · exact ih hitem n hn

end Walk

/-- The names of the entries of the directory that the names lead to. -/
def listing : List String → Item β → Option (List String)
  | [], .dir items => some (items.map Prod.fst)
  | name :: names, .dir items => (items.lookup name).bind (listing names)
  | _, _ => none

end Item

/-! ## Texts of paths -/

/-- `Path::join` with a name. -/
def joinName (path name : String) : String :=
  if path = "" ∨ path.toList.getLast? = some '/' then path ++ name else path ++ "/" ++ name

def under (root : String) (names : List String) : String := names.foldl joinName root

section Under

variable {path name name' : String} {names names' : List String}

/-- The names with what comes before each of them. -/
def tailChars (names : List String) : List Char := names.flatMap fun name => '/' :: name.toList

theorem tailChars_head {c : Char} {cs : List Char} (h : tailChars names = c :: cs) : c = '/' := by
  cases names with
  | nil => cases h
  | cons name names =>
    rw [tailChars, List.flatMap_cons, List.cons_append] at h
    exact (List.cons.inj h).1.symm

theorem toList_under (hpath : path ≠ "" ∧ path.toList.getLast? ≠ some '/') (hnames : ∀ name ∈ names, IsName name) :
    (under path names).toList = path.toList ++ tailChars names := by
  induction names generalizing path with
  | nil => exact (List.append_nil _).symm
  | cons name names ih =>
    obtain ⟨hslash, hempty, -⟩ := hnames name List.mem_cons_self
    have hne : name.toList ≠ [] := fun h => hempty (String.toList_inj.1 h)
    have hjoin : joinName path name = path ++ "/" ++ name := if_neg (not_or.2 hpath)
    have htext : (joinName path name).toList = path.toList ++ '/' :: name.toList := by
      rw [hjoin, String.toList_append, String.toList_append]
      simp
    have hlast : (joinName path name).toList.getLast? ≠ some '/' := by
      rw [htext, List.getLast?_append_of_ne_nil _ (List.cons_ne_nil _ _)]
      intro h
      have hmem := List.mem_of_getLast? h
      rw [List.getLast?_cons_of_ne_nil hne] at h
      exact hslash (List.mem_of_getLast? h)
    have hnonempty : joinName path name ≠ "" := by
      intro h
      rw [h] at htext
      simp at htext
    have hrest := ih ⟨hnonempty, hlast⟩ fun n hn => hnames n (List.mem_cons_of_mem _ hn)
    show (under (joinName path name) names).toList = _
    rw [hrest, htext, tailChars, tailChars, List.flatMap_cons, List.append_assoc]

/-- A name and what comes behind it. -/
theorem name_of_append (hname : '/' ∉ name.toList) (hname' : '/' ∉ name'.toList)
    (h : name.toList ++ tailChars names = name'.toList ++ tailChars names') :
    name = name' ∧ tailChars names = tailChars names' := by
  have htake : ∀ (n : String) (ns : List String), '/' ∉ n.toList →
      (n.toList ++ tailChars ns).takeWhile (· ≠ '/') = n.toList := by
    intro n ns hn
    have hall : ∀ c ∈ n.toList, decide (c ≠ '/') = true := by
      intro c hc
      exact decide_eq_true fun heq => hn (heq ▸ hc)
    rw [List.takeWhile_append_of_pos hall]
    cases htail : tailChars ns with
    | nil => simp
    | cons c cs => simp [tailChars_head htail]
  have heq : name = name' := by
    rw [← String.toList_inj, ← htake name names hname, h, htake name' names' hname']
  rw [heq] at h
  exact ⟨heq, List.append_cancel_left h⟩

theorem tailChars_injective (hnames : ∀ name ∈ names, IsName name) (hnames' : ∀ name ∈ names', IsName name)
    (h : tailChars names = tailChars names') : names = names' := by
  induction names generalizing names' with
  | nil =>
    cases names' with
    | nil => rfl
    | cons name' names' => cases h
  | cons name names ih =>
    cases names' with
    | nil => cases h
    | cons name' names' =>
      rw [tailChars, tailChars, List.flatMap_cons, List.flatMap_cons] at h
      obtain ⟨hname, hrest⟩ := name_of_append (hnames name List.mem_cons_self).1
        (hnames' name' List.mem_cons_self).1 (List.cons.inj h).2
      rw [hname, ih (fun n hn => hnames n (List.mem_cons_of_mem _ hn))
        (fun n hn => hnames' n (List.mem_cons_of_mem _ hn)) hrest]

/-- The first name comes behind the root and at most a slash. -/
theorem toList_under_cons (root : String) (hnames : ∀ n ∈ name :: names, IsName n) :
    (under root (name :: names)).toList =
      root.toList ++ (if root = "" ∨ root.toList.getLast? = some '/' then [] else ['/']) ++
        (name.toList ++ tailChars names) := by
  obtain ⟨hslash, hempty, -⟩ := hnames name List.mem_cons_self
  have hne : name.toList ≠ [] := fun h => hempty (String.toList_inj.1 h)
  have htext : (joinName root name).toList =
      root.toList ++ (if root = "" ∨ root.toList.getLast? = some '/' then [] else ['/']) ++ name.toList := by
    unfold joinName
    split
    · rw [String.toList_append, List.append_nil]
    · rw [String.toList_append, String.toList_append]
      rfl
  have hclosed : joinName root name ≠ "" ∧ (joinName root name).toList.getLast? ≠ some '/' := by
    constructor
    · intro h
      rw [h] at htext
      exact hne (List.append_eq_nil_iff.1 htext.symm).2
    · rw [htext, List.getLast?_append_of_ne_nil _ hne]
      intro h
      exact hslash (List.mem_of_getLast? h)
  show (under (joinName root name) names).toList = _
  rw [toList_under hclosed fun n hn => hnames n (List.mem_cons_of_mem _ hn), htext, List.append_assoc]

theorem under_injective {root : String} (hnames : ∀ name ∈ names, IsName name)
    (hnames' : ∀ name ∈ names', IsName name) (h : under root names = under root names') : names = names' := by
  have hnil : ∀ name names, (∀ n ∈ name :: names, IsName n) → under root (name :: names) ≠ root := by
    intro name names hall heq
    have htext := toList_under_cons root hall
    have hlength := congrArg List.length htext
    rw [heq, List.length_append, List.length_append, List.length_append] at hlength
    have hempty : name.toList = [] := List.length_eq_zero_iff.1 (by omega)
    exact (hall name List.mem_cons_self).2.1 (String.toList_inj.1 hempty)
  cases names with
  | nil =>
    cases names' with
    | nil => rfl
    | cons name' names' => exact absurd h.symm (hnil name' names' hnames')
  | cons name names =>
    cases names' with
    | nil => exact absurd h (hnil name names hnames)
    | cons name' names' =>
      have htext := congrArg String.toList h
      rw [toList_under_cons root hnames, toList_under_cons root hnames'] at htext
      obtain ⟨hname, hrest⟩ := name_of_append (hnames name List.mem_cons_self).1
        (hnames' name' List.mem_cons_self).1 (List.append_cancel_left htext)
      rw [hname, tailChars_injective (fun n hn => hnames n (List.mem_cons_of_mem _ hn))
        (fun n hn => hnames' n (List.mem_cons_of_mem _ hn)) hrest]

end Under

end Files
