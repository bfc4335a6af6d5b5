import Mathlib.Data.List.Basic

/-!
# Kanade.Db.Json

Lists of strings as JSON text. `Json` is what the database relies on of `serde_json`: what
`to_string` writes, `from_str` reads back. `plainJson` is such a codec; it reads what it writes and
no more (no white space, no `\u` escapes).
-/

namespace Kanade

/-- `serde_json::to_string` and `serde_json::from_str` at lists of strings. -/
structure Json where
  encode : List String → String
  decode : String → Except String (List String)
  decode_encode : ∀ l, decode (encode l) = .ok l

/-! ## The plain codec -/

/-- The text of a string after its opening quote, with the closing one. -/
def quoteChars : List Char → List Char
  | [] => ['"']
  | c :: cs => if c = '"' ∨ c = '\\' then '\\' :: c :: quoteChars cs else c :: quoteChars cs

def moreItems : List String → List Char
  | [] => [']']
  | s :: l => ',' :: '"' :: (quoteChars s.toList ++ moreItems l)

def arrayChars : List String → List Char
  | [] => ['[', ']']
  | s :: l => '[' :: '"' :: (quoteChars s.toList ++ moreItems l)

/-- Where a reader of an array of strings is. -/
inductive Scan where
  | start
  | first
  | next
  | text (acc : List Char)
  | escape (acc : List Char)
  | after
  | closed

/-- What the reader, having read the items `out`, makes of the rest of the text. -/
def scan : List Char → List String → Scan → Except String (List String)
  | [], out, .closed => .ok out
  | [], _, _ => .error "EOF while parsing a list"
  | '[' :: cs, out, .start => scan cs out .first
  | '"' :: cs, out, .first => scan cs out (.text [])
  | ']' :: cs, out, .first => scan cs out .closed
  | '"' :: cs, out, .next => scan cs out (.text [])
  | c :: cs, out, .text acc =>
    if c = '"' then scan cs (out ++ [String.ofList acc]) .after
    else if c = '\\' then scan cs out (.escape acc)
    else scan cs out (.text (acc ++ [c]))
  | c :: cs, out, .escape acc => scan cs out (.text (acc ++ [c]))
  | ',' :: cs, out, .after => scan cs out .next
  | ']' :: cs, out, .after => scan cs out .closed
  | _ :: _, _, _ => .error "expected value"

/-- Reading a quoted string, wherever the text goes on. -/
theorem scan_quoteChars (cs : List Char) (rest : List Char) (out : List String)
    (acc : List Char) :
    scan (quoteChars cs ++ rest) out (.text acc) =
      scan rest (out ++ [String.ofList (acc ++ cs)]) .after := by
  induction cs generalizing acc with
  | nil => simp [quoteChars, scan]
  | cons c cs ih =>
    by_cases hc : c = '"' ∨ c = '\\'
    · have hback : scan ('\\' :: c :: (quoteChars cs ++ rest)) out (.text acc) =
          scan (quoteChars cs ++ rest) out (.text (acc ++ [c])) := by
        rw [scan, if_neg (by decide), if_pos rfl, scan]
      rw [quoteChars, if_pos hc, List.cons_append, List.cons_append, hback, ih,
        List.append_assoc, List.singleton_append]
    · obtain ⟨hquote, hslash⟩ := not_or.1 hc
      rw [quoteChars, if_neg hc, List.cons_append, scan, if_neg hquote, if_neg hslash, ih,
        List.append_assoc, List.singleton_append]

theorem scan_item (s : String) (rest : List Char) (out : List String) :
    scan (quoteChars s.toList ++ rest) out (.text []) = scan rest (out ++ [s]) .after := by
  rw [scan_quoteChars, List.nil_append, String.ofList_toList]

theorem scan_moreItems (l out : List String) : scan (moreItems l) out .after = .ok (out ++ l) := by
  induction l generalizing out with
  | nil => simp [moreItems, scan]
  | cons s l ih =>
    rw [moreItems, scan, scan, scan_item, ih, List.append_assoc, List.singleton_append]

theorem scan_arrayChars (l : List String) : scan (arrayChars l) [] .start = .ok l := by
  cases l with
  | nil => rfl
  | cons s l =>
    rw [arrayChars, scan, scan, scan_item, scan_moreItems]
    rfl

/-- Quotes and backslashes are escaped, all other characters stand for themselves. -/
def plainJson : Json where
  encode l := String.ofList (arrayChars l)
  decode text := scan text.toList [] .start
  decode_encode l := by rw [String.toList_ofList, scan_arrayChars]

example : plainJson.encode ["/a", "/b"] = "[\"/a\",\"/b\"]" := by decide

end Kanade
