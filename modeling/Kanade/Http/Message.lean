import Kanade.Text.Percent
import Kanade.Text.Terminated

/-!
# Http.Message

Responses of HTTP/1.1 as they are written, and what can be read of the bytes.

* `Head.write`: the status line and the fields, with the empty line behind them.
* `Head.Clean`: no part of a head breaks the lines or the fields.
* `Reads`: the bytes are a clean head and what follows it. `Reads.unique`: they are no other.
* `write_broken`: a value with a line break is read as more fields.
-/

namespace Http

def eol : List UInt8 := [13, 10]

/-- Lines with an empty one behind them. -/
def writeLines (lines : List String) : List UInt8 := (lines.flatMap fun line => Percent.bytes line ++ eol) ++ eol

structure Head where
  status : Nat
  reason : String
  fields : List (String × String)
deriving DecidableEq

def fieldLine (field : String × String) : String := field.1 ++ ": " ++ field.2

namespace Head

def statusLine (head : Head) : String := "HTTP/1.1 " ++ toString head.status ++ " " ++ head.reason

def lines (head : Head) : List String := head.statusLine :: head.fields.map fieldLine

def write (head : Head) : List UInt8 := writeLines head.lines

def field? (head : Head) (name : String) : Option String := (head.fields.find? fun f => f.1 = name).map Prod.snd

end Head

/-- Has no part of a line break. -/
def InLine (text : String) : Prop := '\r' ∉ text.toList ∧ '\n' ∉ text.toList

instance (text : String) : Decidable (InLine text) := inferInstanceAs (Decidable (_ ∧ _))

structure Head.Clean (head : Head) : Prop where
  reason : InLine head.reason
  names : ∀ field ∈ head.fields, InLine field.1 ∧ ':' ∉ field.1.toList
  values : ∀ field ∈ head.fields, InLine field.2

/-- The bytes are read as a response with the head, behind which the rest comes. -/
structure Reads (bytes : List UInt8) (head : Head) (rest : List UInt8) : Prop where
  clean : head.Clean
  written : bytes = head.write ++ rest

section Lines

variable {line : String} {lines lines' : List String} {rest rest' : List UInt8}

theorem bytes_append (s t : String) : Percent.bytes (s ++ t) = Percent.bytes s ++ Percent.bytes t := by
  rw [Percent.bytes, String.toList_append, List.flatMap_append]
  rfl

theorem return_not_mem (h : '\r' ∉ line.toList) : (13 : UInt8) ∉ Percent.bytes line := by
  intro hmem
  obtain ⟨c, hc, hbyte⟩ := List.mem_flatMap.1 hmem
  have hval := (Percent.eq_of_ascii_mem hbyte (by decide)).2
  have heq : c = '\r' := Char.ext (UInt32.toNat_inj.1 hval)
  exact h (heq ▸ hc)

theorem bytes_ne_nil (h : line ≠ "") : Percent.bytes line ≠ [] := by
  intro hnil
  exact h (Percent.bytes_injective hnil)

theorem writeLines_cons (line : String) (lines : List String) (rest : List UInt8) :
    writeLines (line :: lines) ++ rest = Percent.bytes line ++ 13 :: 10 :: (writeLines lines ++ rest) := by
  unfold writeLines eol
  simp

theorem writeLines_nil (rest : List UInt8) : writeLines [] ++ rest = [] ++ 13 :: 10 :: rest := rfl

/-- Lines that are not empty and have no `\r` are read in one way. -/
theorem writeLines_inj (h : ∀ line ∈ lines, line ≠ "" ∧ '\r' ∉ line.toList)
    (h' : ∀ line ∈ lines', line ≠ "" ∧ '\r' ∉ line.toList)
    (heq : writeLines lines ++ rest = writeLines lines' ++ rest') : lines = lines' ∧ rest = rest' := by
  induction lines generalizing lines' with
  | nil =>
    cases lines' with
    | nil => exact ⟨rfl, List.append_cancel_left heq⟩
    | cons line' lines' =>
      obtain ⟨hne, hreturn⟩ := h' line' List.mem_cons_self
      rw [writeLines_nil, writeLines_cons] at heq
      obtain ⟨hempty, -⟩ := Terminated.terminated_inj List.not_mem_nil (return_not_mem hreturn) heq
      exact absurd hempty.symm (bytes_ne_nil hne)
  | cons line lines ih =>
    obtain ⟨hne, hreturn⟩ := h line List.mem_cons_self
    cases lines' with
    | nil =>
      rw [writeLines_nil, writeLines_cons] at heq
      obtain ⟨hempty, -⟩ := Terminated.terminated_inj (return_not_mem hreturn) List.not_mem_nil heq
      exact absurd hempty (bytes_ne_nil hne)
    | cons line' lines' =>
      obtain ⟨hne', hreturn'⟩ := h' line' List.mem_cons_self
      rw [writeLines_cons, writeLines_cons] at heq
      obtain ⟨hline, htail⟩ := Terminated.terminated_inj (return_not_mem hreturn) (return_not_mem hreturn') heq
      obtain ⟨hlines, hrest⟩ := ih (fun l hl => h l (List.mem_cons_of_mem _ hl))
        (fun l hl => h' l (List.mem_cons_of_mem _ hl)) (List.cons.inj htail).2
      exact ⟨by rw [Percent.bytes_injective hline, hlines], hrest⟩

end Lines

section Reads

variable {bytes rest rest' : List UInt8} {head head' : Head} {field field' : String × String}

theorem statusLine_toList (head : Head) :
    head.statusLine.toList = "HTTP/1.1 ".toList ++ (Nat.toDigits 10 head.status ++ ' ' :: head.reason.toList) := by
  unfold Head.statusLine
  rw [String.toList_append, String.toList_append, String.toList_append]
  have hdigits : (toString head.status).toList = Nat.toDigits 10 head.status := Nat.toList_repr
  rw [hdigits]
  simp

theorem isDigit_of_status {c : Char} (h : c ∈ Nat.toDigits 10 head.status) : c.isDigit :=
  Nat.isDigit_of_mem_toDigits (by omega) (by omega) h

theorem statusLine_inj (h : head.statusLine = head'.statusLine) :
    head.status = head'.status ∧ head.reason = head'.reason := by
  have htext := congrArg String.toList h
  rw [statusLine_toList, statusLine_toList] at htext
  have hblank : ∀ head : Head, ' ' ∉ Nat.toDigits 10 head.status := by
    intro head hmem
    have hdigit : (' ' : Char).isDigit = true := isDigit_of_status hmem
    exact absurd hdigit (by decide)
  obtain ⟨hstatus, hreason⟩ := Terminated.terminated_inj (hblank head) (hblank head') (List.append_cancel_left htext)
  have hvalue := congrArg (Nat.ofDigitChars 10 · 0) hstatus
  rw [Nat.ofDigitChars_toDigits (by omega) (by omega), Nat.ofDigitChars_toDigits (by omega) (by omega)] at hvalue
  exact ⟨hvalue, String.toList_inj.1 hreason⟩

theorem fieldLine_toList (field : String × String) :
    (fieldLine field).toList = field.1.toList ++ ':' :: ' ' :: field.2.toList := by
  unfold fieldLine
  rw [String.toList_append, String.toList_append]
  simp

theorem fieldLine_inj (hname : ':' ∉ field.1.toList) (hname' : ':' ∉ field'.1.toList)
    (h : fieldLine field = fieldLine field') : field = field' := by
  have htext := congrArg String.toList h
  rw [fieldLine_toList, fieldLine_toList] at htext
  obtain ⟨hfirst, hsecond⟩ := Terminated.terminated_inj hname hname' htext
  exact Prod.ext (String.toList_inj.1 hfirst) (String.toList_inj.1 (List.cons.inj hsecond).2)

theorem map_fieldLine_inj {fields fields' : List (String × String)} (h : ∀ f ∈ fields, ':' ∉ f.1.toList)
    (h' : ∀ f ∈ fields', ':' ∉ f.1.toList) (heq : fields.map fieldLine = fields'.map fieldLine) :
    fields = fields' := by
  induction fields generalizing fields' with
  | nil => exact (List.map_eq_nil_iff.1 heq.symm).symm
  | cons field fields ih =>
    cases fields' with
    | nil => cases heq
    | cons field' fields' =>
      obtain ⟨hline, hlines⟩ := List.cons.inj heq
      rw [fieldLine_inj (h field List.mem_cons_self) (h' field' List.mem_cons_self) hline,
        ih (fun f hf => h f (List.mem_cons_of_mem _ hf)) (fun f hf => h' f (List.mem_cons_of_mem _ hf)) hlines]

theorem Head.Clean.lines (h : head.Clean) : ∀ line ∈ head.lines, line ≠ "" ∧ '\r' ∉ line.toList := by
  intro line hline
  rcases List.mem_cons.1 hline with rfl | hline
  · constructor
    · intro hempty
      have htext := congrArg String.toList hempty
      rw [statusLine_toList] at htext
      cases htext
    · rw [statusLine_toList]
      simp only [List.mem_append, List.mem_cons, not_or]
      refine ⟨by decide, ?_, by decide, h.reason.1⟩
      intro hmem
      have hdigit : ('\r' : Char).isDigit = true := isDigit_of_status hmem
      exact absurd hdigit (by decide)
  · obtain ⟨field, hfield, rfl⟩ := List.mem_map.1 hline
    constructor
    · intro hempty
      have htext := congrArg String.toList hempty
      rw [fieldLine_toList] at htext
      simp at htext
    · rw [fieldLine_toList]
      simp only [List.mem_append, List.mem_cons, not_or]
      exact ⟨(h.names field hfield).1.1, by decide, by decide, (h.values field hfield).1⟩

/-- There is one way to read a response. -/
theorem Reads.unique (h : Reads bytes head rest) (h' : Reads bytes head' rest') : head = head' ∧ rest = rest' := by
  obtain ⟨hlines, hrest⟩ := writeLines_inj h.clean.lines h'.clean.lines (h.written.symm.trans h'.written)
  obtain ⟨hstatus, hfields⟩ := List.cons.inj hlines
  obtain ⟨hcode, hreason⟩ := statusLine_inj hstatus
  have hsame := map_fieldLine_inj (fun f hf => (h.clean.names f hf).2) (fun f hf => (h'.clean.names f hf).2) hfields
  refine ⟨?_, hrest⟩
  cases head
  cases head'
  cases hcode
  cases hreason
  cases hsame
  rfl

end Reads

/-- A line break in a value ends its field, and the text behind it is a field of its own. -/
theorem write_broken (status : Nat) (reason name value name' value' : String) (before after : List (String × String)) :
    (Head.mk status reason (before ++ (name, value ++ "\r\n" ++ fieldLine (name', value')) :: after)).write =
      (Head.mk status reason (before ++ (name, value) :: (name', value') :: after)).write := by
  have hbreak : Percent.bytes "\r\n" = eol := by decide +kernel
  have hline : Percent.bytes (fieldLine (name, value ++ "\r\n" ++ fieldLine (name', value'))) =
      Percent.bytes (fieldLine (name, value)) ++ eol ++ Percent.bytes (fieldLine (name', value')) := by
    rw [← hbreak, ← bytes_append, ← bytes_append]
    congr 1
    apply String.toList_inj.1
    simp [fieldLine]
  unfold Head.write Head.lines writeLines
  simp only [Head.statusLine, List.map_append, List.map_cons, List.flatMap_cons, List.flatMap_append, hline,
    List.append_assoc]

end Http
