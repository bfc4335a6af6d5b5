import Mathlib.Data.Rat.Lemmas
import Kanade.Db.Json
import Kanade.Db.Playlists
import Kanade.Wire.Model

/-!
# Kanade.Wire.PlainText

JSON as compact text, and a reader of it. `plainText` is a `Serde.Text` that reads what it writes and
no more (no white space, no `\u` escapes); its floats are fractions, and exact.

`readValue_chars`: a value is read back wherever the text goes on. The readers take as much fuel as
the text is long.
-/

namespace Kanade

open Serde

/-! ## Writing -/

def intChars : Int → List Char
  | .ofNat n => Nat.toDigits 10 n
  | .negSucc n => '-' :: Nat.toDigits 10 (n + 1)

def strChars (s : String) : List Char := '"' :: quoteChars s.toList

mutual

def chars : Value → List Char
  | .null => ['n', 'u', 'l', 'l']
  | .bool true => ['t', 'r', 'u', 'e']
  | .bool false => ['f', 'a', 'l', 's', 'e']
  | .int n => intChars n
  | .float q => intChars q.num ++ '/' :: Nat.toDigits 10 q.den
  | .str s => strChars s
  | .arr items => '[' :: itemsChars [] items
  | .obj members => '{' :: membersChars [] members
termination_by structural v => v

/-- The items and the bracket, `sep` before the first one. -/
def itemsChars (sep : List Char) : List Value → List Char
  | [] => [']']
  | v :: vs => sep ++ (chars v ++ itemsChars [','] vs)
termination_by structural vs => vs

def membersChars (sep : List Char) : List (String × Value) → List Char
  | [] => ['}']
  | (k, v) :: rest => sep ++ (strChars k ++ ':' :: (chars v ++ membersChars [','] rest))
termination_by structural ms => ms

end

/-! ## Reading -/

/-- The text of a string, after its opening quote. After a backslash the next character stands for
itself. -/
def readString : Bool → List Char → List Char → Except String (String × List Char)
  | _, [], _ => .error "EOF while parsing a string"
  | true, c :: cs, acc => readString false cs (acc ++ [c])
  | false, c :: cs, acc =>
    if c = '"' then .ok (String.ofList acc, cs)
    else if c = '\\' then readString true cs acc
    else readString false cs (acc ++ [c])

def numberChar (c : Char) : Bool := c.isDigit || c = '-' || c = '/'

def intOf : List Char → Int
  | '-' :: ds => -(Nat.ofDigitChars 10 ds 0 : Nat)
  | ds => (Nat.ofDigitChars 10 ds 0 : Nat)

def numberOf (token : List Char) : Value :=
  if '/' ∈ token then
    .float (intOf (token.takeWhile (· ≠ '/')) /
      (Nat.ofDigitChars 10 ((token.dropWhile (· ≠ '/')).drop 1) 0 : Nat))
  else .int (intOf token)

def readNumber (cs : List Char) : Except String (Value × List Char) :=
  if cs.takeWhile numberChar = [] then .error "expected value"
  else .ok (numberOf (cs.takeWhile numberChar), cs.dropWhile numberChar)

def readWord (word : List Char) (v : Value) (cs : List Char) : Except String (Value × List Char) :=
  if word.isPrefixOf cs then .ok (v, cs.drop word.length) else .error "expected ident"

/-- Over a character. -/
def readChar (c : Char) : List Char → Except String (List Char)
  | [] => .error "EOF while parsing a value"
  | d :: cs => if d = c then .ok cs else .error "expected another character"

/-- What stands before an item. -/
def sepOf (first : Bool) : List Char := if first then [] else [',']

/-- Over it. -/
def readSep (first : Bool) (cs : List Char) : Except String (List Char) :=
  if first then .ok cs else readChar ',' cs

mutual

def readValue : Nat → List Char → Except String (Value × List Char)
  | 0, _ => .error "recursion limit exceeded"
  | _ + 1, [] => .error "EOF while parsing a value"
  | fuel + 1, c :: cs =>
    if c = '"' then do
      let (s, rest) ← readString false cs []
      .ok (.str s, rest)
    else if c = '[' then do
      let (vs, rest) ← readItems fuel true cs
      .ok (.arr vs, rest)
    else if c = '{' then do
      let (ms, rest) ← readMembers fuel true cs
      .ok (.obj ms, rest)
    else if c = 'n' then readWord ['n', 'u', 'l', 'l'] .null (c :: cs)
    else if c = 't' then readWord ['t', 'r', 'u', 'e'] (.bool true) (c :: cs)
    else if c = 'f' then readWord ['f', 'a', 'l', 's', 'e'] (.bool false) (c :: cs)
    else readNumber (c :: cs)
termination_by structural fuel => fuel

def readItems : Nat → Bool → List Char → Except String (List Value × List Char)
  | 0, _, _ => .error "recursion limit exceeded"
  | fuel + 1, first, cs =>
    if cs.head? = some ']' then .ok ([], cs.drop 1)
    else do
      let cs ← readSep first cs
      let (v, rest) ← readValue fuel cs
      let (vs, rest) ← readItems fuel false rest
      .ok (v :: vs, rest)
termination_by structural fuel => fuel

def readMembers : Nat → Bool → List Char → Except String (Members × List Char)
  | 0, _, _ => .error "recursion limit exceeded"
  | fuel + 1, first, cs =>
    if cs.head? = some '}' then .ok ([], cs.drop 1)
    else do
      let cs ← readSep first cs
      let cs ← readChar '"' cs
      let (k, rest) ← readString false cs []
      let rest ← readChar ':' rest
      let (v, rest) ← readValue fuel rest
      let (ms, rest) ← readMembers fuel false rest
      .ok ((k, v) :: ms, rest)
termination_by structural fuel => fuel

end

/-- A text of one value. -/
def readText (cs : List Char) : Except String Value := do
  let (v, rest) ← readValue cs.length cs
  if rest = [] then .ok v else .error "trailing characters"

/-! ## Reading what was written -/

theorem readString_quoteChars (cs rest acc : List Char) :
    readString false (quoteChars cs ++ rest) acc = .ok (String.ofList (acc ++ cs), rest) := by
  induction cs generalizing acc with
  | nil =>
    rw [quoteChars, List.singleton_append, readString, if_pos rfl, List.append_nil]
  | cons c cs ih =>
    by_cases hc : c = '"' ∨ c = '\\'
    · have hback : readString false ('\\' :: c :: (quoteChars cs ++ rest)) acc =
          readString false (quoteChars cs ++ rest) (acc ++ [c]) := by
        rw [readString, if_neg (by decide), if_pos rfl, readString]
      rw [quoteChars, if_pos hc, List.cons_append, List.cons_append, hback, ih, List.append_assoc,
        List.singleton_append]
    · obtain ⟨hquote, hslash⟩ := not_or.1 hc
      rw [quoteChars, if_neg hc, List.cons_append, readString, if_neg hquote, if_neg hslash, ih,
        List.append_assoc, List.singleton_append]

theorem readString_toList (s : String) (rest : List Char) :
    readString false (quoteChars s.toList ++ rest) [] = .ok (s, rest) := by
  rw [readString_quoteChars, List.nil_append, String.ofList_toList]

/-! Numbers. -/

theorem digits_numberChar {n : Nat} {c : Char} (h : c ∈ Nat.toDigits 10 n) : numberChar c := by
  simp [numberChar, Nat.isDigit_of_mem_toDigits (by omega) (by omega) h]

theorem ne_of_mem_digits {n : Nat} {c d : Char} (h : c ∈ Nat.toDigits 10 n) (hd : d.isDigit = false) :
    c ≠ d := by
  intro heq
  have hc := Nat.isDigit_of_mem_toDigits (by omega) (by omega) h
  rw [heq, hd] at hc
  exact Bool.noConfusion hc

theorem intOf_digits (n : Nat) : intOf (Nat.toDigits 10 n) = n := by
  obtain ⟨d, ds, h⟩ := List.exists_cons_of_ne_nil (Nat.toDigits_ne_nil (n := n) (b := 10))
  have hd : d ≠ '-' := ne_of_mem_digits (by rw [h]; exact List.mem_cons_self) rfl
  have hof := Nat.ofDigitChars_toDigits (b := 10) (n := n) (by omega) (by omega)
  rw [h] at hof ⊢
  rw [intOf, hof]
  intro ds' heq
  exact hd (List.cons.inj heq).1

theorem intOf_intChars (n : Int) : intOf (intChars n) = n := by
  cases n with
  | ofNat n => exact intOf_digits n
  | negSucc n =>
    rw [intChars, intOf, Nat.ofDigitChars_toDigits (by omega) (by omega)]
    rfl

theorem mem_intChars {n : Int} {c : Char} (h : c ∈ intChars n) : numberChar c ∧ c ≠ '/' := by
  cases n with
  | ofNat n => exact ⟨digits_numberChar h, ne_of_mem_digits h rfl⟩
  | negSucc n =>
    rcases List.mem_cons.1 h with rfl | h
    · exact ⟨rfl, by decide⟩
    · exact ⟨digits_numberChar h, ne_of_mem_digits h rfl⟩

theorem intChars_ne_nil (n : Int) : intChars n ≠ [] := by
  cases n with
  | ofNat n => exact Nat.toDigits_ne_nil
  | negSucc n => exact List.cons_ne_nil _ _

/-- The text goes on with something that is not of a number. -/
def Stops (rest : List Char) : Prop := ∀ c ∈ rest.head?, numberChar c = false

theorem readNumber_append {token rest : List Char} (hne : token ≠ [])
    (htoken : ∀ c ∈ token, numberChar c) (hrest : Stops rest) :
    readNumber (token ++ rest) = .ok (numberOf token, rest) := by
  have hhead : rest.takeWhile numberChar = [] ∧ rest.dropWhile numberChar = rest := by
    cases rest with
    | nil => exact ⟨rfl, rfl⟩
    | cons c cs => simp [hrest c rfl]
  rw [readNumber, List.takeWhile_append_of_pos htoken, List.dropWhile_append_of_pos htoken, hhead.1,
    hhead.2, List.append_nil, if_neg hne]

theorem numberOf_intChars (n : Int) : numberOf (intChars n) = .int n := by
  have hslash : '/' ∉ intChars n := fun h => (mem_intChars h).2 rfl
  rw [numberOf, if_neg hslash, intOf_intChars]

theorem numberOf_fraction (q : ℚ) :
    numberOf (intChars q.num ++ '/' :: Nat.toDigits 10 q.den) = .float q := by
  have hnum : ∀ c ∈ intChars q.num, decide (c ≠ '/') := by
    intro c hc
    exact decide_eq_true (mem_intChars hc).2
  rw [numberOf, if_pos (by simp), List.takeWhile_append_of_pos hnum,
    List.dropWhile_append_of_pos hnum, List.takeWhile_cons_of_neg (by simp),
    List.dropWhile_cons_of_neg (by simp), List.append_nil, intOf_intChars, List.drop_one,
    List.tail_cons, Nat.ofDigitChars_toDigits (by omega) (by omega), Rat.num_div_den]

theorem readValue_number {fuel : Nat} {token rest : List Char} (hne : token ≠ [])
    (htoken : ∀ c ∈ token, numberChar c) (hrest : Stops rest) :
    readValue (fuel + 1) (token ++ rest) = .ok (numberOf token, rest) := by
  rw [← readNumber_append hne htoken hrest]
  cases token with
  | nil => exact absurd rfl hne
  | cons c cs =>
    have hc := htoken c List.mem_cons_self
    have hother : ∀ d, numberChar d = false → c ≠ d := by
      rintro d hd rfl
      rw [hc] at hd
      exact Bool.noConfusion hd
    rw [List.cons_append, readValue, if_neg (hother '"' rfl), if_neg (hother '[' rfl),
      if_neg (hother '{' rfl), if_neg (hother 'n' rfl), if_neg (hother 't' rfl),
      if_neg (hother 'f' rfl)]

/-! Values. What a text starts with, and what may follow a value. -/

theorem chars_head (v : Value) : ∃ c cs, chars v = c :: cs ∧ c ≠ ']' := by
  have hnumber : ∀ token : List Char, token ≠ [] → (∀ c ∈ token, numberChar c) →
      ∀ more, ∃ c cs, token ++ more = c :: cs ∧ c ≠ ']' := by
    intro token hne htoken more
    cases token with
    | nil => exact absurd rfl hne
    | cons c cs =>
      refine ⟨c, cs ++ more, rfl, ?_⟩
      rintro rfl
      exact Bool.noConfusion (htoken ']' List.mem_cons_self)
  cases v with
  | null => exact ⟨'n', _, rfl, by decide⟩
  | bool b =>
    cases b with
    | true => exact ⟨'t', _, rfl, by decide⟩
    | false => exact ⟨'f', _, rfl, by decide⟩
  | int n =>
    have h := hnumber (intChars n) (intChars_ne_nil n) (fun c hc => (mem_intChars hc).1) []
    rwa [List.append_nil] at h
  | float q => exact hnumber (intChars q.num) (intChars_ne_nil _) (fun c hc => (mem_intChars hc).1) _
  | str s => exact ⟨'"', _, rfl, by decide⟩
  | arr items => exact ⟨'[', _, rfl, by decide⟩
  | obj members => exact ⟨'{', _, rfl, by decide⟩

theorem chars_pos (v : Value) : 0 < (chars v).length := by
  obtain ⟨c, cs, h, -⟩ := chars_head v
  rw [h]
  exact Nat.succ_pos _

theorem itemsChars_pos (sep : List Char) (vs : List Value) : 0 < (itemsChars sep vs).length := by
  cases vs with
  | nil => exact Nat.succ_pos _
  | cons v vs =>
    have hv := chars_pos v
    rw [itemsChars, List.length_append, List.length_append]
    omega

theorem membersChars_pos (sep : List Char) (ms : List (String × Value)) :
    0 < (membersChars sep ms).length := by
  cases ms with
  | nil => exact Nat.succ_pos _
  | cons m ms =>
    obtain ⟨k, v⟩ := m
    have hv := chars_pos v
    rw [membersChars, List.length_append, List.length_append, List.length_cons, List.length_append]
    omega

theorem stops_items (vs : List Value) (rest : List Char) : Stops (itemsChars [','] vs ++ rest) := by
  intro c hc
  cases vs <;> cases hc <;> rfl

theorem stops_members (ms : List (String × Value)) (rest : List Char) :
    Stops (membersChars [','] ms ++ rest) := by
  intro c hc
  cases ms <;> cases hc <;> rfl

theorem readSep_sepOf (first : Bool) (cs : List Char) : readSep first (sepOf first ++ cs) = .ok cs := by
  cases first <;> rfl

theorem head?_sepOf {first : Bool} {c d : Char} {cs : List Char} (hc : c ≠ d) (hd : d ≠ ',') :
    (sepOf first ++ c :: cs).head? ≠ some d := by
  cases first with
  | true => exact fun h => hc (Option.some.inj h)
  | false => exact fun h => hd (Option.some.inj h).symm

theorem readItems_cons {fuel : Nat} {v : Value} {vs : List Value} {rest : List Char} (first : Bool)
    (hv : readValue fuel (chars v ++ (itemsChars [','] vs ++ rest)) =
      .ok (v, itemsChars [','] vs ++ rest))
    (hvs : readItems fuel false (itemsChars [','] vs ++ rest) = .ok (vs, rest)) :
    readItems (fuel + 1) first (itemsChars (sepOf first) (v :: vs) ++ rest) =
      .ok (v :: vs, rest) := by
  obtain ⟨c, cs, hchars, hc⟩ := chars_head v
  have hhead : (sepOf first ++ (chars v ++ (itemsChars [','] vs ++ rest))).head? ≠ some ']' := by
    rw [hchars]
    exact head?_sepOf hc (by decide)
  rw [itemsChars, List.append_assoc, List.append_assoc, readItems, if_neg hhead]
  simp only [readSep_sepOf, ok_bind, hv, hvs]

theorem readMembers_cons {fuel : Nat} {k : String} {v : Value} {ms : Members} {rest : List Char}
    (first : Bool)
    (hv : readValue fuel (chars v ++ (membersChars [','] ms ++ rest)) =
      .ok (v, membersChars [','] ms ++ rest))
    (hms : readMembers fuel false (membersChars [','] ms ++ rest) = .ok (ms, rest)) :
    readMembers (fuel + 1) first (membersChars (sepOf first) ((k, v) :: ms) ++ rest) =
      .ok ((k, v) :: ms, rest) := by
  have htext : membersChars (sepOf first) ((k, v) :: ms) ++ rest =
      sepOf first ++ '"' :: (quoteChars k.toList ++
        ':' :: (chars v ++ (membersChars [','] ms ++ rest))) := by
    simp [membersChars, strChars]
  rw [htext, readMembers, if_neg (head?_sepOf (by decide) (by decide))]
  simp only [readSep_sepOf, ok_bind, readChar, if_true, readString_toList, hv, hms]

mutual

/-- A value is read back, whatever follows it. -/
theorem readValue_chars : ∀ (v : Value) (fuel : Nat) (rest : List Char),
    (chars v).length ≤ fuel → Stops rest → readValue fuel (chars v ++ rest) = .ok (v, rest)
  | v, 0, rest, hfuel, hrest => absurd (chars_pos v) (by omega)
  | .null, fuel + 1, rest, hfuel, hrest => by simp [chars, readValue, readWord]
  | .bool true, fuel + 1, rest, hfuel, hrest => by simp [chars, readValue, readWord]
  | .bool false, fuel + 1, rest, hfuel, hrest => by simp [chars, readValue, readWord]
  | .int n, fuel + 1, rest, hfuel, hrest => by
    rw [chars, readValue_number (intChars_ne_nil n) (fun c hc => (mem_intChars hc).1) hrest,
      numberOf_intChars]
  | .float q, fuel + 1, rest, hfuel, hrest => by
    have hne : intChars q.num ++ '/' :: Nat.toDigits 10 q.den ≠ [] := by simp
    have hnumber : ∀ c ∈ intChars q.num ++ '/' :: Nat.toDigits 10 q.den, numberChar c := by
      intro c hc
      rcases List.mem_append.1 hc with hc | hc
      · exact (mem_intChars hc).1
      · rcases List.mem_cons.1 hc with rfl | hc
        · rfl
        · exact digits_numberChar hc
    rw [chars, readValue_number hne hnumber hrest, numberOf_fraction]
  | .str s, fuel + 1, rest, hfuel, hrest => by
    rw [chars, strChars, List.cons_append, readValue, if_pos rfl, readString_toList]
    rfl
  | .arr items, fuel + 1, rest, hfuel, hrest => by
    rw [chars, List.length_cons] at hfuel
    have hitems := readItems_chars items fuel true rest (by simpa [sepOf] using hfuel)
    rw [sepOf, if_pos rfl] at hitems
    rw [chars, List.cons_append, readValue, if_neg (by decide), if_pos rfl, hitems]
    rfl
  | .obj members, fuel + 1, rest, hfuel, hrest => by
    rw [chars, List.length_cons] at hfuel
    have hmembers := readMembers_chars members fuel true rest (by simpa [sepOf] using hfuel)
    rw [sepOf, if_pos rfl] at hmembers
    rw [chars, List.cons_append, readValue, if_neg (by decide), if_neg (by decide), if_pos rfl,
      hmembers]
    rfl
termination_by structural v => v

theorem readItems_chars : ∀ (vs : List Value) (fuel : Nat) (first : Bool) (rest : List Char),
    (itemsChars (sepOf first) vs).length ≤ fuel →
    readItems fuel first (itemsChars (sepOf first) vs ++ rest) = .ok (vs, rest)
  | vs, 0, first, rest, hfuel => absurd (itemsChars_pos (sepOf first) vs) (by omega)
  | [], fuel + 1, first, rest, hfuel => by
    rw [itemsChars, List.singleton_append, readItems, if_pos List.head?_cons]
    rfl
  | v :: vs, fuel + 1, first, rest, hfuel => by
    have hpos := chars_pos v
    have htail := itemsChars_pos [','] vs
    rw [itemsChars, List.length_append, List.length_append] at hfuel
    exact readItems_cons first
      (readValue_chars v fuel (itemsChars [','] vs ++ rest) (by omega) (stops_items vs rest))
      (readItems_chars vs fuel false rest (by rw [sepOf, if_neg Bool.false_ne_true]; omega))
termination_by structural vs => vs

theorem readMembers_chars : ∀ (ms : List (String × Value)) (fuel : Nat) (first : Bool)
    (rest : List Char), (membersChars (sepOf first) ms).length ≤ fuel →
    readMembers fuel first (membersChars (sepOf first) ms ++ rest) = .ok (ms, rest)
  | ms, 0, first, rest, hfuel => absurd (membersChars_pos (sepOf first) ms) (by omega)
  | [], fuel + 1, first, rest, hfuel => by
    rw [membersChars, List.singleton_append, readMembers, if_pos List.head?_cons]
    rfl
  | (k, v) :: ms, fuel + 1, first, rest, hfuel => by
    have hpos := chars_pos v
    have htail := membersChars_pos [','] ms
    rw [membersChars, List.length_append, List.length_append, List.length_cons,
      List.length_append] at hfuel
    exact readMembers_cons first
      (readValue_chars v fuel (membersChars [','] ms ++ rest) (by omega) (stops_members ms rest))
      (readMembers_chars ms fuel false rest (by rw [sepOf, if_neg Bool.false_ne_true]; omega))
termination_by structural ms => ms

end

theorem readText_chars (v : Value) : readText (chars v) = .ok v := by
  have h := readValue_chars v (chars v).length [] (Nat.le_refl _) (fun c hc => nomatch hc)
  rw [List.append_nil] at h
  rw [readText, h]
  rfl

mutual

theorem reread_id : ∀ v : Value, v.reread id = v
  | .null | .bool _ | .int _ | .float _ | .str _ => rfl
  | .arr items => by rw [Value.reread, rereadItems_id items]
  | .obj members => by rw [Value.reread, rereadMembers_id members]
termination_by structural v => v

theorem rereadItems_id : ∀ vs : List Value, rereadItems id vs = vs
  | [] => rfl
  | v :: vs => by rw [rereadItems, reread_id v, rereadItems_id vs]
termination_by structural vs => vs

theorem rereadMembers_id : ∀ ms : List (String × Value), rereadMembers id ms = ms
  | [] => rfl
  | (k, v) :: rest => by rw [rereadMembers, reread_id v, rereadMembers_id rest]
termination_by structural ms => ms

end

/-- Quotes and backslashes are escaped, all other characters stand for themselves. -/
def plainText : Text where
  print v := String.ofList (chars v)
  parse s := readText s.toList
  reread := id
  parse_print v _ := by rw [String.toList_ofList, readText_chars, reread_id]

/-- The column `smart_filter` with a text. -/
def kindJson (text : Text) : KindJson where
  encode kind := text.print (.obj (serPlaylistKind kind))
  decode s := do
    let v ← text.parse s
    dePlaylistKind deString v
  decode_encode kind := by
    have hwithin : (Value.obj (serPlaylistKind kind)).within 127 := by
      simp [serPlaylistKind_within]
    rw [text.parse_print _ hwithin, ok_bind, dePlaylistKind_ser Serde.deString_str]

end Kanade
