import OrderSaga.Json.Value

namespace OrderSaga.Json

def maxDepth : Nat := 10000

def isBlank (c : Char) : Bool := c == ' ' || c == '\t' || c == '\n' || c == '\r'

def skipBlanks : List Char → List Char
  | c :: rest => if isBlank c then skipBlanks rest else c :: rest
  | [] => []

/-- The longest prefix of decimal digits and what follows it. -/
def spanDigits : List Char → List Char × List Char
  | c :: rest =>
    if c.isDigit then
      let (ds, r) := spanDigits rest
      (c :: ds, r)
    else ([], c :: rest)
  | [] => ([], [])

/-- The value of one hex digit. -/
def hexValue (c : Char) : Option Nat :=
  if c.isDigit then some (c.toNat - 48)
  else if 'a' ≤ c && c ≤ 'f' then some (c.toNat - 87)
  else if 'A' ≤ c && c ≤ 'F' then some (c.toNat - 55)
  else none

/-- The code unit named by four hex digits. -/
def hexUnit (a b c d : Char) : Option Nat := do
  let a ← hexValue a
  let b ← hexValue b
  let c ← hexValue c
  let d ← hexValue d
  pure (((a * 16 + b) * 16 + c) * 16 + d)

def isSurrogate (u : Nat) : Bool := 0xD800 ≤ u && u < 0xE000

/-- The character of a high and a low surrogate, if they form a pair. -/
def pairChar (hi lo : Nat) : Option Char :=
  if 0xD800 ≤ hi && hi < 0xDC00 && 0xDC00 ≤ lo && lo < 0xE000 then
    some (Char.ofNat (0x10000 + (hi - 0xD800) * 0x400 + (lo - 0xDC00)))
  else none

def replacement : Char := Char.ofNat 0xFFFD

/-- The rest of a string literal after its opening quote: its text and what follows the closing
quote. -/
def readString (acc : List Char) : List Char → Option (String × List Char)
  | '"' :: rest => some (String.ofList acc.reverse, rest)
  | '\\' :: '"' :: rest => readString ('"' :: acc) rest
  | '\\' :: '\\' :: rest => readString ('\\' :: acc) rest
  | '\\' :: '/' :: rest => readString ('/' :: acc) rest
  | '\\' :: 'b' :: rest => readString (Char.ofNat 8 :: acc) rest
  | '\\' :: 'f' :: rest => readString (Char.ofNat 12 :: acc) rest
  | '\\' :: 'n' :: rest => readString ('\n' :: acc) rest
  | '\\' :: 'r' :: rest => readString ('\r' :: acc) rest
  | '\\' :: 't' :: rest => readString ('\t' :: acc) rest
  | '\\' :: 'u' :: a :: b :: c :: d :: rest =>
    match hexUnit a b c d with
    | none => none
    | some u =>
      if isSurrogate u then
        match _hr : rest with
        | '\\' :: 'u' :: e :: f :: g :: h :: rest' =>
          match hexUnit e f g h >>= pairChar u with
          | some ch => readString (ch :: acc) rest'
          | none => readString (replacement :: acc) rest
        | _ => readString (replacement :: acc) rest
      else readString (Char.ofNat u :: acc) rest
  | '\\' :: _ => none
  | c :: rest => if c.toNat < 32 then none else readString (c :: acc) rest
  | [] => none
termination_by cs => cs.length
decreasing_by all_goals (simp_all; try omega)

/-- The optional minus of a number literal. -/
def readSign : List Char → List Char × List Char
  | '-' :: r => (['-'], r)
  | r => ([], r)

/-- The whole part of a number literal: a lone zero, or digits that do not start with one. -/
def readWhole : List Char → Option (List Char × List Char)
  | '0' :: r => some (['0'], r)
  | c :: r =>
    if '1' ≤ c && c ≤ '9' then
      let (ds, r') := spanDigits r
      some (c :: ds, r')
    else none
  | [] => none

/-- The optional fraction of a number literal: a point and at least one digit. -/
def readFraction : List Char → Option (List Char × List Char)
  | '.' :: r =>
    let (ds, r') := spanDigits r
    if ds.isEmpty then none else some ('.' :: ds, r')
  | r => some ([], r)

/-- The optional sign of an exponent. -/
def readExponentSign : List Char → List Char × List Char
  | '+' :: t => (['+'], t)
  | '-' :: t => (['-'], t)
  | t => ([], t)

/-- The optional exponent of a number literal: `e` or `E`, an optional sign and at least one digit. -/
def readExponent : List Char → Option (List Char × List Char)
  | e :: r =>
    if e == 'e' || e == 'E' then
      let (esign, r') := readExponentSign r
      let (ds, r'') := spanDigits r'
      if ds.isEmpty then none else some (e :: esign ++ ds, r'')
    else some ([], e :: r)
  | [] => some ([], [])

/-- A number literal at the front: its text and what follows it. -/
def readNumber (cs : List Char) : Option (String × List Char) := do
  let (sign, cs) := readSign cs
  let (whole, cs) ← readWhole cs
  let (fraction, cs) ← readFraction cs
  let (exponent, cs) ← readExponent cs
  pure (String.ofList (sign ++ whole ++ fraction ++ exponent), cs)

def readWord (word : List Char) (cs : List Char) : Option (List Char) :=
  if word.isPrefixOf cs then some (cs.drop word.length) else none

mutual
/-- A value after optional blanks. -/
def readValue : Nat → Nat → List Char → Option (Json × List Char)
  | 0, _, _ => none
  | fuel + 1, depth, cs =>
    match skipBlanks cs with
    | '{' :: rest =>
      if depth + 1 > maxDepth then none
      else match skipBlanks rest with
        | '}' :: rest' => some (.obj [], rest')
        | rest' => (readMembers fuel (depth + 1) [] rest').map fun (fs, r) => (.obj fs, r)
    | '[' :: rest =>
      if depth + 1 > maxDepth then none
      else match skipBlanks rest with
        | ']' :: rest' => some (.arr [], rest')
        | rest' => (readItems fuel (depth + 1) [] rest').map fun (js, r) => (.arr js, r)
    | '"' :: rest => (readString [] rest).map fun (s, r) => (.str s, r)
    | 't' :: rest => (readWord ['r', 'u', 'e'] rest).map fun r => (.bool true, r)
    | 'f' :: rest => (readWord ['a', 'l', 's', 'e'] rest).map fun r => (.bool false, r)
    | 'n' :: rest => (readWord ['u', 'l', 'l'] rest).map fun r => (.null, r)
    | cs' => (readNumber cs').map fun (t, r) => (.num t, r)

/-- Members of an object from the first key on, up to and including the closing brace. -/
def readMembers : Nat → Nat → List (String × Json) → List Char →
    Option (List (String × Json) × List Char)
  | 0, _, _, _ => none
  | fuel + 1, depth, acc, cs =>
    match skipBlanks cs with
    | '"' :: rest =>
      match readString [] rest with
      | none => none
      | some (key, rest) =>
        match skipBlanks rest with
        | ':' :: rest =>
          match readValue fuel depth rest with
          | none => none
          | some (v, rest) =>
            match skipBlanks rest with
            | ',' :: rest => readMembers fuel depth ((key, v) :: acc) rest
            | '}' :: rest => some (((key, v) :: acc).reverse, rest)
            | _ => none
        | _ => none
    | _ => none

/-- Items of an array from the first one on, up to and including the closing bracket. -/
def readItems : Nat → Nat → List Json → List Char → Option (List Json × List Char)
  | 0, _, _, _ => none
  | fuel + 1, depth, acc, cs =>
    match readValue fuel depth cs with
    | none => none
    | some (v, rest) =>
      match skipBlanks rest with
      | ',' :: rest => readItems fuel depth (v :: acc) rest
      | ']' :: rest => some ((v :: acc).reverse, rest)
      | _ => none
end

/-- The document a text holds, if it is one JSON value with nothing but blanks around it. -/
def parse (text : String) : Option Json :=
  let cs := text.toList
  match readValue (2 * cs.length + 2) 0 cs with
  | some (j, rest) => if (skipBlanks rest).isEmpty then some j else none
  | none => none

/-- The first value of a text that may go on after it, as a reader of a stream of values takes it:
an object or an array ends at its closing bracket, and any other value must be followed by a blank
or by the end of the text. -/
def parseFirst (text : String) : Option Json :=
  let cs := text.toList
  match readValue (2 * cs.length + 2) 0 cs with
  | some (.obj ms, _) => some (.obj ms)
  | some (.arr xs, _) => some (.arr xs)
  | some (j, rest) => match rest with
    | [] => some j
    | c :: _ => if isBlank c then some j else none
  | none => none

end OrderSaga.Json
