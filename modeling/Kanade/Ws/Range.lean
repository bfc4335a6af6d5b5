import Kanade.Stream.Unfold
import Kanade.Text.Percent
import Kanade.Text.Url

/-!
# Kanade.Ws.Range

Files in ranges: `parse_range`, which the two servers have a copy of each, and `serve_path_with_range`.

* `answers_parseRange`: what a range of RFC 9110 selects of a file is what is answered.
* `delivers_read`: however short the reads are, the stream delivers what it has been set to.
* `range_exact`: both together, with the length that is announced.
-/

namespace Kanade

/-! ## parse_range -/

inductive RangeError where
  | unsatisfiable
  /-- An operation on `u64` has no result. -/
  | overflow
deriving DecidableEq, Repr

/-- `White_Space` of Unicode. -/
def isWhiteSpace (c : Char) : Bool :=
  (9 ≤ c.toNat && c.toNat ≤ 13) || c.toNat = 0x20 || c.toNat = 0x85 || c.toNat = 0xA0 || c.toNat = 0x1680 ||
    (0x2000 ≤ c.toNat && c.toNat ≤ 0x200A) || c.toNat = 0x2028 || c.toNat = 0x2029 || c.toNat = 0x202F ||
    c.toNat = 0x205F || c.toNat = 0x3000

/-- `trim`. -/
def trim (cs : List Char) : List Char :=
  ((cs.dropWhile isWhiteSpace).reverse.dropWhile isWhiteSpace).reverse

/-- `split_whitespace`. -/
def splitWhitespace (cs : List Char) : List (List Char) := (cs.splitOnP isWhiteSpace).filter fun word => word ≠ []

/-- `parse::<u64>`, which takes a `+`. -/
def u64FromStr : List Char → Option UInt64
  | '+' :: cs => Url.parseU64 cs
  | cs => Url.parseU64 cs

def checkedSub (a b : UInt64) : Except RangeError UInt64 := if b ≤ a then .ok (a - b) else .error .overflow

def checkedAdd (a b : UInt64) : Except RangeError UInt64 :=
  if a.toNat + b.toNat < 2 ^ 64 then .ok (a + b) else .error .overflow

def saturatingSub (a b : UInt64) : UInt64 := if b ≤ a then a - b else 0

def orUnsatisfiable {α : Type} : Option α → Except RangeError α
  | some a => .ok a
  | none => .error .unsatisfiable

def parseRange (header : Option String) (totalLen : UInt64) : Except RangeError (Option (UInt64 × UInt64)) :=
  match header with
  | none => .ok none
  | some header =>
    if totalLen = 0 then .error .unsatisfiable
    else do
      let spec ← orUnsatisfiable ("bytes=".toList.isPrefixOf? (trim header.toList))
      let endS ← orUnsatisfiable (Url.cut '-' spec).2
      let startS := (Url.cut '-' spec).1
      if startS = [] then do
        let suffix ← orUnsatisfiable (u64FromStr endS)
        if suffix = 0 then .error .unsatisfiable
        else do
          let last ← checkedSub totalLen 1
          .ok (some (saturatingSub totalLen (min suffix totalLen), last))
      else do
        let start ← orUnsatisfiable (u64FromStr startS)
        if totalLen ≤ start then .error .unsatisfiable
        else do
          let last ←
            if endS = [] then checkedSub totalLen 1
            else do
              let n ← orUnsatisfiable (u64FromStr endS)
              let last ← checkedSub totalLen 1
              .ok (min n last)
          if last < start then .error .unsatisfiable
          else .ok (some (start, last))

/-- The copy of `media_server.rs`. -/
def MediaServer.parseRange (header : Option String) (totalLen : UInt64) :
    Except RangeError (Option (UInt64 × UInt64)) :=
  match header with
  | none => .ok none
  | some header =>
    if totalLen = 0 then .error .unsatisfiable
    else do
      let spec ← orUnsatisfiable ("bytes=".toList.isPrefixOf? (trim header.toList))
      let endS ← orUnsatisfiable (Url.cut '-' spec).2
      let startS := (Url.cut '-' spec).1
      if startS = [] then do
        let suffix ← orUnsatisfiable (u64FromStr endS)
        if suffix = 0 then .error .unsatisfiable
        else do
          let last ← checkedSub totalLen 1
          .ok (some (saturatingSub totalLen (min suffix totalLen), last))
      else do
        let start ← orUnsatisfiable (u64FromStr startS)
        if totalLen ≤ start then .error .unsatisfiable
        else do
          let last ←
            if endS = [] then checkedSub totalLen 1
            else do
              let n ← orUnsatisfiable (u64FromStr endS)
              let last ← checkedSub totalLen 1
              .ok (min n last)
          if last < start then .error .unsatisfiable
          else .ok (some (start, last))

/-! ## Ranges of RFC 9110 -/

/-- `1*DIGIT` below `2 ^ 64`. -/
structure Decimal where
  text : List Char
  nonempty : text ≠ []
  digits : ∀ c ∈ text, c.isDigit
  small : Nat.ofDigitChars 10 text 0 < 2 ^ 64

instance : Inhabited Decimal := ⟨⟨['7'], List.cons_ne_nil _ _, List.forall_mem_singleton.2 rfl, by decide⟩⟩

def Decimal.value (n : Decimal) : Nat := Nat.ofDigitChars 10 n.text 0

/-- An `int-range` with or without its end, or a `suffix-range`. -/
inductive ByteRange where
  | between (first last : Decimal) (ordered : first.value ≤ last.value)
  | after (first : Decimal)
  | suffix (length : Decimal)

namespace ByteRange

def text : ByteRange → List Char
  | between first last _ => first.text ++ '-' :: last.text
  | after first => first.text ++ ['-']
  | suffix length => '-' :: length.text

def header (range : ByteRange) : String := String.ofList ("bytes=".toList ++ range.text)

/-- The position is one of a file of this length that the range asks for. -/
def Selects (range : ByteRange) (totalLen p : Nat) : Prop :=
  p < totalLen ∧ match range with
    | between first last _ => first.value ≤ p ∧ p ≤ last.value
    | after first => first.value ≤ p
    | suffix length => totalLen ≤ p + length.value

/-- What is answered are the positions that the range selects, or that there are none. -/
def Answers (range : ByteRange) (totalLen : Nat) : Except RangeError (Option (UInt64 × UInt64)) → Prop
  | .ok (some (start, last)) =>
    start ≤ last ∧ ∀ p, range.Selects totalLen p ↔ start.toNat ≤ p ∧ p ≤ last.toNat
  | .ok none => False
  | .error e => e = .unsatisfiable ∧ ∀ p, ¬ range.Selects totalLen p

end ByteRange

section Parse

variable {header : Option String} {totalLen start last : UInt64} {range : ByteRange}

theorem toNat_min (a b : UInt64) : (min a b).toNat = min a.toNat b.toNat := by
  by_cases h : a ≤ b
  · have hmin : min a b = a := if_pos h
    rw [hmin, Nat.min_eq_left (UInt64.le_iff_toNat_le.1 h)]
  · have hmin : min a b = b := if_neg h
    rw [hmin, Nat.min_eq_right]
    rw [UInt64.le_iff_toNat_le] at h
    omega

theorem toNat_saturatingSub (a b : UInt64) : (saturatingSub a b).toNat = a.toNat - b.toNat := by
  unfold saturatingSub
  split
  · rename_i h
    exact UInt64.toNat_sub_of_le a b h
  · rename_i h
    rw [UInt64.le_iff_toNat_le] at h
    rw [UInt64.toNat_zero]
    omega

theorem checkedSub_one (h : totalLen ≠ 0) : checkedSub totalLen 1 = .ok (totalLen - 1) := by
  have hpos : totalLen.toNat ≠ 0 := fun h0 => h (UInt64.toNat_inj.1 h0)
  refine if_pos (UInt64.le_iff_toNat_le.2 ?_)
  rw [UInt64.toNat_one]
  omega

theorem toNat_sub_one (h : totalLen ≠ 0) : (totalLen - 1).toNat = totalLen.toNat - 1 ∧ totalLen.toNat ≠ 0 := by
  have hpos : totalLen.toNat ≠ 0 := fun h0 => h (UInt64.toNat_inj.1 h0)
  refine ⟨?_, hpos⟩
  rw [UInt64.toNat_sub_of_le, UInt64.toNat_one]
  rw [UInt64.le_iff_toNat_le, UInt64.toNat_one]
  omega

/-- Within the file. -/
def Inbounds (totalLen : UInt64) : Except RangeError (Option (UInt64 × UInt64)) → Prop
  | .ok (some (start, last)) => start ≤ last ∧ last < totalLen
  | .ok none => True
  | .error e => e = .unsatisfiable

theorem inbounds_bind {α : Type} {o : Option α} {f : α → Except RangeError (Option (UInt64 × UInt64))}
    (h : ∀ a, o = some a → Inbounds totalLen (f a)) : Inbounds totalLen (orUnsatisfiable o >>= f) := by
  cases o with
  | none => rfl
  | some a => exact h a rfl

theorem inbounds_part {start last : UInt64} (hpos : totalLen ≠ 0) (hlast : last ≤ totalLen - 1) :
    Inbounds totalLen (if last < start then .error .unsatisfiable else .ok (some (start, last))) := by
  obtain ⟨hsub, hne⟩ := toNat_sub_one hpos
  rw [UInt64.le_iff_toNat_le] at hlast
  split
  · rfl
  · rename_i hle
    refine ⟨UInt64.not_lt.1 hle, ?_⟩
    rw [UInt64.lt_iff_toNat_lt]
    omega

/-- What comes out is within the file, and no operation fails. -/
theorem inbounds_parseRange (header : Option String) (totalLen : UInt64) :
    Inbounds totalLen (parseRange header totalLen) := by
  unfold parseRange
  cases header with
  | none => trivial
  | some header =>
    dsimp only
    split
    · rfl
    rename_i hpos
    obtain ⟨hsub, hne⟩ := toNat_sub_one hpos
    rw [checkedSub_one hpos]
    refine inbounds_bind fun spec _ => inbounds_bind fun endS _ => ?_
    split
    · refine inbounds_bind fun suffix _ => ?_
      split
      · rfl
      · rename_i hsuffix
        have hlen : suffix.toNat ≠ 0 := fun h0 => hsuffix (UInt64.toNat_inj.1 h0)
        refine ⟨?_, ?_⟩
        · rw [UInt64.le_iff_toNat_le, toNat_saturatingSub, toNat_min]
          omega
        · rw [UInt64.lt_iff_toNat_lt]
          omega
    · refine inbounds_bind fun start _ => ?_
      split
      · rfl
      · split
        · exact inbounds_part hpos (UInt64.le_refl _)
        · refine inbounds_bind fun n _ => ?_
          refine inbounds_part hpos ?_
          rw [UInt64.le_iff_toNat_le, toNat_min]
          exact Nat.min_le_right _ _

theorem trim_of_ends {cs : List Char} (hfirst : ∀ c ∈ cs.head?, isWhiteSpace c = false)
    (hlast : ∀ c ∈ cs.getLast?, isWhiteSpace c = false) : trim cs = cs := by
  have hkeep : ∀ cs : List Char, (∀ c ∈ cs.head?, isWhiteSpace c = false) → cs.dropWhile isWhiteSpace = cs := by
    intro cs h
    cases cs with
    | nil => rfl
    | cons c cs => rw [List.dropWhile_cons_of_neg (by simp [h c rfl])]
  rw [trim, hkeep cs hfirst, hkeep cs.reverse (by simpa using hlast), List.reverse_reverse]

theorem digit_range {c : Char} (h : c.isDigit) : 48 ≤ c.toNat ∧ c.toNat ≤ 57 := by
  simp only [Char.isDigit, ge_iff_le, Bool.and_eq_true, decide_eq_true_eq] at h
  exact ⟨UInt32.le_iff_toNat_le.1 h.1, UInt32.le_iff_toNat_le.1 h.2⟩

theorem not_white_of_digit {c : Char} (h : c.isDigit) : isWhiteSpace c = false := by
  have hrange := digit_range h
  unfold isWhiteSpace
  simp
  omega

theorem not_minus_of_digit {c : Char} (h : c.isDigit) : c ≠ '-' ∧ c ≠ '+' := by
  refine ⟨?_, ?_⟩
  · rintro rfl
    cases h
  · rintro rfl
    cases h

theorem toNat_value (n : Decimal) : (UInt64.ofNat n.value).toNat = n.value := UInt64.toNat_ofNat_of_lt' n.small

theorem u64FromStr_text (n : Decimal) : u64FromStr n.text = some (UInt64.ofNat n.value) := by
  have hparse : Url.parseU64 n.text = some (UInt64.ofNat n.value) := by
    refine if_pos ⟨n.nonempty, ?_, n.small⟩
    exact List.all_eq_true.2 n.digits
  rw [← hparse]
  cases htext : n.text with
  | nil => rfl
  | cons c cs =>
    have hplus := (not_minus_of_digit (n.digits c (htext ▸ List.mem_cons_self))).2
    unfold u64FromStr
    split
    · rename_i heq
      exact absurd (List.cons.inj heq).1 hplus
    · rfl

/-- The text ends in a digit or a `-`. -/
theorem getLast_text (range : ByteRange) (pre : List Char) :
    ∀ c ∈ (pre ++ range.text).getLast?, isWhiteSpace c = false := by
  have hdecimal : ∀ (n : Decimal) (pre : List Char), ∀ c ∈ (pre ++ n.text).getLast?, isWhiteSpace c = false := by
    intro n pre c hc
    rw [List.getLast?_append_of_ne_nil _ n.nonempty] at hc
    exact not_white_of_digit (n.digits c (List.mem_of_getLast? hc))
  cases range with
  | between first last _ =>
    have happ : pre ++ (first.text ++ '-' :: last.text) = (pre ++ first.text ++ ['-']) ++ last.text := by simp
    rw [ByteRange.text, happ]
    exact hdecimal last _
  | after first =>
    intro c hc
    rw [ByteRange.text, ← List.append_assoc, List.getLast?_concat] at hc
    rw [← Option.some.inj hc]
    decide
  | suffix length =>
    have happ : pre ++ '-' :: length.text = (pre ++ ['-']) ++ length.text := by simp
    rw [ByteRange.text, happ]
    exact hdecimal length _

theorem spec_header (range : ByteRange) :
    "bytes=".toList.isPrefixOf? (trim range.header.toList) = some range.text := by
  have hfirst : ∀ c ∈ ("bytes=".toList ++ range.text).head?, isWhiteSpace c = false := by
    intro c hc
    have hbytes : "bytes=".toList = ['b', 'y', 't', 'e', 's', '='] := by decide
    rw [hbytes, List.cons_append, List.head?_cons] at hc
    rw [← Option.some.inj hc]
    decide
  have hheader : range.header.toList = "bytes=".toList ++ range.text := String.toList_ofList
  have htrim := (congrArg trim hheader).trans (trim_of_ends hfirst (getLast_text range _))
  exact List.isPrefixOf?_eq_some_iff_append_eq.2 htrim.symm

theorem answers_parseRange (range : ByteRange) (totalLen : UInt64) :
    range.Answers totalLen.toNat (parseRange (some range.header) totalLen) := by
  unfold parseRange
  dsimp only
  split
  · rename_i hzero
    refine ⟨rfl, fun p hp => ?_⟩
    rw [hzero] at hp
    exact absurd hp.1 (Nat.not_lt_zero p)
  rename_i hpos
  obtain ⟨hsub, hne⟩ := toNat_sub_one hpos
  rw [checkedSub_one hpos, spec_header]
  have hminus : ∀ n : Decimal, '-' ∉ n.text := fun n hmem => (not_minus_of_digit (n.digits _ hmem)).1 rfl
  cases range with
  | between first after hordered =>
    have hcut : Url.cut '-' (ByteRange.between first after hordered).text = (first.text, some after.text) :=
      Url.cut_append (hminus first)
    simp only [orUnsatisfiable, bind, Except.bind, hcut, if_neg first.nonempty, if_neg after.nonempty,
      u64FromStr_text]
    split
    · rename_i hle
      rw [UInt64.le_iff_toNat_le, toNat_value] at hle
      refine ⟨rfl, fun p hp => ?_⟩
      have := hp.1
      have := hp.2.1
      omega
    · rename_i hlt
      rw [UInt64.le_iff_toNat_le, toNat_value] at hlt
      have hmin : (min (UInt64.ofNat after.value) (totalLen - 1)).toNat = min after.value (totalLen.toNat - 1) := by
        rw [toNat_min, toNat_value, hsub]
      have hstart : ¬ min (UInt64.ofNat after.value) (totalLen - 1) < UInt64.ofNat first.value := by
        rw [UInt64.lt_iff_toNat_lt, hmin, toNat_value]
        omega
      rw [if_neg hstart]
      refine ⟨UInt64.not_lt.1 hstart, fun p => ?_⟩
      rw [hmin, toNat_value]
      unfold ByteRange.Selects
      dsimp only
      omega
  | after first =>
    have hcut : Url.cut '-' (ByteRange.after first).text = (first.text, some []) := Url.cut_append (hminus first)
    simp only [orUnsatisfiable, bind, Except.bind, hcut, if_neg first.nonempty, if_true, u64FromStr_text]
    split
    · rename_i hle
      rw [UInt64.le_iff_toNat_le, toNat_value] at hle
      refine ⟨rfl, fun p hp => ?_⟩
      have hp1 := hp.1
      have hp2 : first.value ≤ p := hp.2
      omega
    · rename_i hlt
      rw [UInt64.le_iff_toNat_le, toNat_value] at hlt
      have hstart : ¬ totalLen - 1 < UInt64.ofNat first.value := by
        rw [UInt64.lt_iff_toNat_lt, hsub, toNat_value]
        omega
      rw [if_neg hstart]
      refine ⟨UInt64.not_lt.1 hstart, fun p => ?_⟩
      rw [hsub, toNat_value]
      unfold ByteRange.Selects
      dsimp only
      omega
  | suffix length =>
    have hcut : Url.cut '-' (ByteRange.suffix length).text = ([], some length.text) := rfl
    simp only [orUnsatisfiable, bind, Except.bind, hcut, if_true, u64FromStr_text]
    split
    · rename_i hzero
      have hlength : length.value = 0 := by
        rw [← toNat_value, hzero, UInt64.toNat_zero]
      refine ⟨rfl, fun p hp => ?_⟩
      have hp1 := hp.1
      have hp2 : totalLen.toNat ≤ p + length.value := hp.2
      omega
    · rename_i hsome
      have hlength : length.value ≠ 0 := by
        intro hzero
        rw [← toNat_value] at hzero
        exact hsome (UInt64.toNat_inj.1 hzero)
      refine ⟨?_, fun p => ?_⟩
      · rw [UInt64.le_iff_toNat_le, toNat_saturatingSub, toNat_min, toNat_value]
        omega
      · rw [toNat_saturatingSub, toNat_min, toNat_value, hsub]
        unfold ByteRange.Selects
        dsimp only
        omega

theorem parseRange_copies (header : Option String) (totalLen : UInt64) :
    MediaServer.parseRange header totalLen = parseRange header totalLen := rfl

end Parse

/-! ## serve_path_with_range -/

/-- A file that does not change, with what each operation on it comes to. -/
structure DiskFile where
  content : List UInt8
  length_lt : content.length < 2 ^ 64
  isFile : Bool
  hasMetadata : Bool
  canSeek : Bool
  /-- The most that each read gives, where it is not none. -/
  short : Nat → Nat

/-- A read of `n` bytes gives at least one where there are some. -/
def DiskFile.read (file : DiskFile) (i position n : Nat) : List UInt8 :=
  (file.content.drop position).take (min n (max 1 (file.short i)))

structure ReadState where
  position : Nat
  remaining : UInt64
  /-- How many reads there were. -/
  reads : Nat

inductive Body where
  | full (text : String)
  | stream (start : ReadState)

structure FileResponse where
  status : Nat
  headers : List (String × String)
  body : Body

/-- `HeaderValue::from_str`. -/
def isHeaderValue (value : String) : Bool := value.toList.all fun c => c = '\t' || (32 ≤ c.toNat && c.toNat ≠ 127)

def FileResponse.insertHeader (response : FileResponse) (name value : String) : FileResponse :=
  if isHeaderValue value then
    { response with headers := response.headers.filter (fun h => h.1 ≠ name) ++ [(name, value)] }
  else response

def FileResponse.header? (response : FileResponse) (name : String) : Option String :=
  (response.headers.find? fun h => h.1 = name).map Prod.snd

def bodyResponse (status : Nat) (body : Body) : FileResponse :=
  ((FileResponse.mk status [] body).insertHeader "access-control-allow-origin" "*").insertHeader
    "access-control-allow-headers" "Range"

def simpleResponse (status : Nat) (body : String) : FileResponse :=
  ((bodyResponse status (.full body)).insertHeader "content-type" "text/plain; charset=utf-8").insertHeader
    "content-length" (toString body.utf8ByteSize)

def readChunkSize : UInt64 := 64 * 1024

/-- The step of `try_unfold`. -/
def DiskFile.step (file : DiskFile) (s : ReadState) : Except RangeError (Option (List UInt8 × ReadState)) :=
  if s.remaining = 0 then .ok none
  else
    let toRead := min s.remaining readChunkSize
    let buf := file.read s.reads s.position toRead.toNat
    if buf = [] then .ok none
    else do
      let remaining ← checkedSub s.remaining (UInt64.ofNat buf.length)
      .ok (some (buf, ⟨s.position + buf.length, remaining, s.reads + 1⟩))

def DiskFile.totalLen (file : DiskFile) : UInt64 := UInt64.ofNat file.content.length

def contentRange (start last totalLen : UInt64) : String :=
  "bytes " ++ toString start.toNat ++ "-" ++ toString last.toNat ++ "/" ++ toString totalLen.toNat

def contentLength (totalLen start last : UInt64) : Except RangeError UInt64 :=
  if totalLen = 0 then .ok 0
  else do
    let diff ← checkedSub last start
    checkedAdd diff 1

/-- The response when the part of the file is known. -/
def servePart (method : String) (file : DiskFile) (contentType : String) (cacheControl : Option String)
    (start last : UInt64) (status : Nat) (contentLength : UInt64) : FileResponse :=
  if method ≠ "HEAD" ∧ contentLength ≠ 0 ∧ ¬ file.canSeek then simpleResponse 500 "Internal Server Error"
  else
    let body := if method = "HEAD" ∨ contentLength = 0 then Body.full "" else .stream ⟨start.toNat, contentLength, 0⟩
    let response := (((bodyResponse status body).insertHeader "content-type" contentType).insertHeader
      "accept-ranges" "bytes").insertHeader "content-length" (toString contentLength.toNat)
    let response :=
      if status = 206 then response.insertHeader "content-range" (contentRange start last file.totalLen) else response
    match cacheControl with
    | some value => response.insertHeader "cache-control" value
    | none => response

/-- `serve_path_with_range`, with what `File::open` finds at the path. -/
def servePathWithRange (method : String) (opened : Option DiskFile) (contentType : String)
    (rangeHeader cacheControl : Option String) : Except RangeError FileResponse :=
  match opened with
  | none => .ok (simpleResponse 404 "Not Found")
  | some file =>
    if ¬ file.hasMetadata then .ok (simpleResponse 500 "Internal Server Error")
    else if ¬ file.isFile then .ok (simpleResponse 404 "Not Found")
    else
      match parseRange rangeHeader file.totalLen with
      | .ok (some (start, last)) =>
        (contentLength file.totalLen start last).map (servePart method file contentType cacheControl start last 206)
      | .ok none => do
        let last ← if file.totalLen = 0 then .ok 0 else checkedSub file.totalLen 1
        (contentLength file.totalLen 0 last).map (servePart method file contentType cacheControl 0 last 200)
      | .error .unsatisfiable =>
        .ok (((bodyResponse 416 (.full "")).insertHeader "content-range"
          ("bytes */" ++ toString file.totalLen.toNat)).insertHeader "content-length" "0")
      | .error .overflow => .error .overflow

/-! ## What is sent -/

def Body.Sends (file : DiskFile) : Body → List UInt8 → Prop
  | .full text, bytes => bytes = Percent.bytes text
  | .stream start, bytes => Unfold.Delivers file.step start bytes

/-- A file that nothing keeps from being read. -/
structure ReadableFile extends DiskFile where
  isFile_eq : isFile = true
  hasMetadata_eq : hasMetadata = true
  canSeek_eq : canSeek = true

instance : Inhabited ReadableFile where
  default :=
    { content := [7, 8], length_lt := by decide, isFile := true, hasMetadata := true, canSeek := true,
      short := fun _ => 1, isFile_eq := rfl, hasMetadata_eq := rfl, canSeek_eq := rfl }

/-- The bytes that are asked for. -/
def DiskFile.requested (file : DiskFile) (header : Option String) : List UInt8 :=
  match parseRange header file.totalLen with
  | .ok (some (start, last)) => (file.content.drop start.toNat).take (last.toNat + 1 - start.toNat)
  | .ok none => file.content
  | .error _ => []

section Serve

variable {file : DiskFile} {response : FileResponse} {name name' value : String}

theorem toNat_totalLen (file : DiskFile) : file.totalLen.toNat = file.content.length :=
  UInt64.toNat_ofNat_of_lt' file.length_lt

/-- What is left of the file is delivered, however short the reads are. -/
theorem delivers_read (start : ReadState) (h : start.position + start.remaining.toNat ≤ file.content.length) :
    Unfold.Delivers file.step start ((file.content.drop start.position).take start.remaining.toNat) := by
  refine @Unfold.delivers_of_left _ _ _ start file.step
    (fun s => s.position + s.remaining.toNat ≤ file.content.length)
    (fun s => (file.content.drop s.position).take s.remaining.toNat) ?_ h
  intro s hs
  unfold DiskFile.step
  split
  · rename_i hzero
    left
    rw [hzero]
    exact ⟨rfl, rfl⟩
  · rename_i hsome
    right
    have hpos : s.remaining.toNat ≠ 0 := fun h0 => hsome (UInt64.toNat_inj.1 h0)
    have hchunk : readChunkSize.toNat = 65536 := by decide
    have hread : (min s.remaining readChunkSize).toNat = min s.remaining.toNat 65536 := by rw [toNat_min, hchunk]
    dsimp only
    rw [hread]
    generalize hbuf : file.read s.reads s.position (min s.remaining.toNat 65536) = buf
    have hlength : buf.length = min (min s.remaining.toNat 65536) (max 1 (file.short s.reads)) := by
      rw [← hbuf, DiskFile.read, List.length_take, List.length_drop]
      omega
    have hne : buf ≠ [] := by
      intro hnil
      rw [hnil, List.length_nil] at hlength
      omega
    have hle : buf.length ≤ s.remaining.toNat := by omega
    have hsize : (UInt64.ofNat buf.length).toNat = buf.length :=
      UInt64.toNat_ofNat_of_lt' (Nat.lt_of_le_of_lt hle s.remaining.toNat_lt)
    have hfits : UInt64.ofNat buf.length ≤ s.remaining := by rw [UInt64.le_iff_toNat_le, hsize]; exact hle
    have hrest : (s.remaining - UInt64.ofNat buf.length).toNat = s.remaining.toNat - buf.length := by
      rw [UInt64.toNat_sub_of_le _ _ hfits, hsize]
    refine ⟨buf, ⟨s.position + buf.length, s.remaining - UInt64.ofNat buf.length, s.reads + 1⟩, ?_, hne, ?_, ?_⟩
    · rw [if_neg hne, checkedSub, if_pos hfits]
      rfl
    · dsimp only
      have hfront : buf = (file.content.drop s.position).take buf.length := by
        rw [hlength, ← hbuf, DiskFile.read]
      calc (file.content.drop s.position).take s.remaining.toNat
          = (file.content.drop s.position).take (buf.length + (s.remaining.toNat - buf.length)) := by
            rw [Nat.add_sub_of_le hle]
        _ = (file.content.drop s.position).take buf.length ++
            ((file.content.drop s.position).drop buf.length).take (s.remaining.toNat - buf.length) := List.take_add
        _ = _ := by rw [← hfront, List.drop_drop, hrest]
    · dsimp only
      rw [hrest]
      omega

theorem header?_insertHeader (hvalue : isHeaderValue value) :
    (response.insertHeader name value).header? name' = if name' = name then some value else response.header? name' := by
  unfold FileResponse.insertHeader FileResponse.header?
  rw [if_pos hvalue, List.find?_append]
  by_cases hname : name' = name
  · have hnone : (response.headers.filter fun h => h.1 ≠ name).find? (fun h => h.1 = name) = none := by
      rw [List.find?_eq_none]
      intro h hmem
      simpa using (List.mem_filter.1 hmem).2
    rw [if_pos hname, hname, hnone]
    simp
  · have hlast : [(name, value)].find? (fun h => h.1 = name') = none := by
      simpa using fun heq : name = name' => hname heq.symm
    have hkept : (response.headers.filter fun h => h.1 ≠ name).find? (fun h => h.1 = name') =
        response.headers.find? fun h => h.1 = name' := by
      rw [List.find?_filter]
      congr 1
      funext h
      by_cases hat : h.1 = name'
      · simp [hat, hname]
      · simp [hat]
    rw [if_neg hname, hlast, Option.or_none, hkept]

theorem isHeaderValue_toString (n : Nat) : isHeaderValue (toString n) := by
  rw [isHeaderValue, List.all_eq_true]
  intro c hc
  have hdigits : (toString n).toList = Nat.toDigits 10 n := Nat.toList_repr
  rw [hdigits] at hc
  have hrange := digit_range (Nat.isDigit_of_mem_toDigits (by omega) (by omega) hc)
  simp
  omega

theorem header?_insertHeader_ne (hname : name' ≠ name) :
    (response.insertHeader name value).header? name' = response.header? name' := by
  by_cases hvalue : isHeaderValue value
  · rw [header?_insertHeader hvalue, if_neg hname]
  · rw [FileResponse.insertHeader, if_neg hvalue]

@[simp] theorem body_insertHeader : (response.insertHeader name value).body = response.body := by
  unfold FileResponse.insertHeader
  split <;> rfl

@[simp] theorem body_bodyResponse (status : Nat) (body : Body) : (bodyResponse status body).body = body := by
  rw [bodyResponse, body_insertHeader, body_insertHeader]

/-- The length that is announced is that of the part, and the part is what the body sends. -/
theorem servePart_sends (method : String) (file : ReadableFile) (contentType : String) (cacheControl : Option String)
    (start last n : UInt64) (status : Nat) (hfits : start.toNat + n.toNat ≤ file.content.length) :
    (servePart method file.toDiskFile contentType cacheControl start last status n).header? "content-length" =
        some (toString n.toNat) ∧
      (servePart method file.toDiskFile contentType cacheControl start last status n).body.Sends file.toDiskFile
        (if method = "HEAD" then [] else (file.content.drop start.toNat).take n.toNat) := by
  have hlength : ∀ response : FileResponse,
      (response.insertHeader "content-length" (toString n.toNat)).header? "content-length" = some (toString n.toNat) := by
    intro response
    rw [header?_insertHeader (isHeaderValue_toString _), if_pos rfl]
  have hbody : (if method = "HEAD" ∨ n = 0 then Body.full "" else .stream ⟨start.toNat, n, 0⟩).Sends file.toDiskFile
      (if method = "HEAD" then [] else (file.content.drop start.toNat).take n.toNat) := by
    by_cases hhead : method = "HEAD"
    · rw [if_pos (.inl hhead), if_pos hhead]
      rfl
    · rw [if_neg hhead]
      by_cases hzero : n = 0
      · rw [if_pos (.inr hzero), hzero]
        rfl
      · rw [if_neg (not_or.2 ⟨hhead, hzero⟩)]
        exact delivers_read ⟨start.toNat, n, 0⟩ hfits
  have hseek : ¬ (method ≠ "HEAD" ∧ n ≠ 0 ∧ ¬ file.canSeek) := fun h => h.2.2 file.canSeek_eq
  unfold servePart
  rw [if_neg hseek]
  dsimp only
  generalize (if method = "HEAD" ∨ n = 0 then Body.full "" else .stream ⟨start.toNat, n, 0⟩) = body at hbody ⊢
  have hrange : "content-length" ≠ "content-range" := by decide
  have hcache : "content-length" ≠ "cache-control" := by decide
  cases cacheControl with
  | none =>
    dsimp only
    split
    · refine ⟨?_, by simpa using hbody⟩
      rw [header?_insertHeader_ne hrange, hlength]
    · exact ⟨hlength _, by simpa using hbody⟩
  | some value =>
    dsimp only
    rw [header?_insertHeader_ne hcache, body_insertHeader]
    split
    · refine ⟨?_, by simpa using hbody⟩
      rw [header?_insertHeader_ne hrange, hlength]
    · exact ⟨hlength _, by simpa using hbody⟩

theorem contentLength_part {totalLen start last : UInt64} (hle : start ≤ last) (hlt : last < totalLen) :
    ∃ n, contentLength totalLen start last = .ok n ∧ n.toNat = last.toNat + 1 - start.toNat := by
  have hsub := UInt64.toNat_sub_of_le last start hle
  have hbound := totalLen.toNat_lt
  rw [UInt64.le_iff_toNat_le] at hle
  rw [UInt64.lt_iff_toNat_lt] at hlt
  have hsome : totalLen ≠ 0 := by
    rintro rfl
    exact absurd hlt (Nat.not_lt_zero _)
  have hone : (1 : UInt64).toNat = 1 := UInt64.toNat_one
  have hsum : (last - start).toNat + (1 : UInt64).toNat < 2 ^ 64 := by omega
  refine ⟨last - start + 1, ?_, ?_⟩
  · rw [contentLength, if_neg hsome, checkedSub, if_pos (UInt64.le_iff_toNat_le.2 hle)]
    exact if_pos hsum
  · rw [UInt64.toNat_add, Nat.mod_eq_of_lt hsum, hsub, hone]
    omega

/-- For a HEAD request nothing is sent, and the same length announced. -/
theorem serves_requested (method : String) (file : ReadableFile) (contentType : String)
    (header cacheControl : Option String) :
    ∃ response, servePathWithRange method (some file.toDiskFile) contentType header cacheControl = .ok response ∧
      response.header? "content-length" = some (toString (file.requested header).length) ∧
      response.body.Sends file.toDiskFile (if method = "HEAD" then [] else file.requested header) := by
  have hin := inbounds_parseRange header file.totalLen
  have htotal := toNat_totalLen file.toDiskFile
  have hmetadata : ¬ ¬ file.hasMetadata := not_not.2 file.hasMetadata_eq
  have hfile : ¬ ¬ file.isFile := not_not.2 file.isFile_eq
  unfold servePathWithRange DiskFile.requested
  dsimp only
  rw [if_neg hmetadata, if_neg hfile]
  rcases hparse : parseRange header file.totalLen with e | range
  · rw [hparse] at hin
    obtain rfl : e = .unsatisfiable := hin
    refine ⟨_, rfl, ?_, ?_⟩
    · exact header?_insertHeader (isHeaderValue_toString 0)
    · rw [body_insertHeader, body_insertHeader, body_bodyResponse]
      split <;> rfl
  · cases range with
    | none =>
      by_cases hzero : file.totalLen = 0
      · have hnil : file.content = [] := by
          rw [hzero] at htotal
          exact List.length_eq_zero_iff.1 htotal.symm
        obtain ⟨hheader, hbody⟩ := servePart_sends method file contentType cacheControl 0 0 0 200 (Nat.zero_le _)
        refine ⟨servePart method file.toDiskFile contentType cacheControl 0 0 200 0, ?_, ?_, ?_⟩
        · dsimp only
          rw [if_pos hzero, hzero]
          rfl
        · rw [hheader, hnil]
          rfl
        · rw [hnil, List.drop_nil, List.take_nil] at hbody
          rwa [hnil]
      · obtain ⟨hsub, hne⟩ := toNat_sub_one hzero
        have hlt : file.totalLen - 1 < file.totalLen := by
          rw [UInt64.lt_iff_toNat_lt]
          omega
        have hle : 0 ≤ file.totalLen - 1 := by
          rw [UInt64.le_iff_toNat_le]
          exact Nat.zero_le _
        obtain ⟨n, hn, hvalue⟩ := contentLength_part hle hlt
        have hall : n.toNat = file.content.length := by
          rw [hvalue, UInt64.toNat_zero]
          omega
        have hfits : (0 : UInt64).toNat + n.toNat ≤ file.content.length := by
          rw [UInt64.toNat_zero]
          omega
        obtain ⟨hheader, hbody⟩ :=
          servePart_sends method file contentType cacheControl 0 (file.totalLen - 1) n 200 hfits
        rw [hall] at hheader hbody
        rw [UInt64.toNat_zero, List.drop_zero, List.take_length] at hbody
        refine ⟨_, ?_, hheader, hbody⟩
        dsimp only
        rw [if_neg hzero, checkedSub_one hzero]
        dsimp only [bind, Except.bind]
        rw [hn]
        rfl
    | some part =>
      obtain ⟨start, last⟩ := part
      rw [hparse] at hin
      obtain ⟨hle, hlt⟩ := hin
      obtain ⟨n, hn, hvalue⟩ := contentLength_part hle hlt
      rw [UInt64.le_iff_toNat_le] at hle
      rw [UInt64.lt_iff_toNat_lt, htotal] at hlt
      have hfits : start.toNat + n.toNat ≤ file.content.length := by omega
      obtain ⟨hheader, hbody⟩ := servePart_sends method file contentType cacheControl start last n 206 hfits
      rw [hvalue] at hheader hbody
      refine ⟨_, ?_, ?_, hbody⟩
      · dsimp only
        rw [hn]
        rfl
      · rw [hheader, List.length_take, List.length_drop, Nat.min_eq_left (by omega)]

theorem Body.Sends.unique {body : Body} {bytes bytes' : List UInt8} (h : body.Sends file bytes)
    (h' : body.Sends file bytes') : bytes = bytes' := by
  cases body with
  | full text => exact Eq.trans h (Eq.symm h')
  | stream start => exact Unfold.Delivers.unique h h'

/-- A range is answered by what it selects, and what is answered is sent, with its length announced. -/
theorem range_exact :
    (∀ (header : Option String) (totalLen : UInt64), Inbounds totalLen (parseRange header totalLen) ∧
      MediaServer.parseRange header totalLen = parseRange header totalLen) ∧
    (∀ (range : ByteRange) (totalLen : UInt64),
      range.Answers totalLen.toNat (parseRange (some range.header) totalLen)) ∧
    ∀ (method : String) (file : ReadableFile) (contentType : String) (header cacheControl : Option String),
      ∃ response, servePathWithRange method (some file.toDiskFile) contentType header cacheControl = .ok response ∧
        response.header? "content-length" = some (toString (file.requested header).length) ∧
        ∀ bytes, response.body.Sends file.toDiskFile bytes ↔
          bytes = if method = "HEAD" then [] else file.requested header := by
  refine ⟨?_, answers_parseRange, ?_⟩
  · intro header totalLen
    exact ⟨inbounds_parseRange header totalLen, parseRange_copies header totalLen⟩
  · intro method file contentType header cacheControl
    obtain ⟨response, hserve, hlength, hsends⟩ := serves_requested method file contentType header cacheControl
    refine ⟨response, hserve, hlength, fun bytes => ⟨fun h => h.unique hsends, ?_⟩⟩
    rintro rfl
    exact hsends

end Serve

end Kanade
