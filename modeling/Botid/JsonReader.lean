import Botid.Bytes
import Botid.Loop

/-! The tiny JSON reader of `bot_info`. A cursor into the text is what is left of it from there on. -/
namespace Botid

abbrev quote : UInt8 := 34
abbrev comma : UInt8 := 44
abbrev colon : UInt8 := 58
abbrev openBracket : UInt8 := 91
abbrev closeBracket : UInt8 := 93
abbrev openBrace : UInt8 := 123
abbrev closeBrace : UInt8 := 125

def isSpace (c : UInt8) : Bool := c = 32 ∨ c = 9 ∨ c = 10 ∨ c = 13

def isDigit (c : UInt8) : Bool := 48 ≤ c ∧ c ≤ 57

/-- `json[i]`; behind the last byte it is the terminating NUL. -/
def peek (s : Bytes) : UInt8 := s.headD 0

def skipWhitespace (s : Bytes) : Bytes := s.dropWhile isSpace

def matchChar (c : UInt8) (s : Bytes) : Bool × Bytes :=
  match skipWhitespace s with
  | [] => (false, [])
  | d :: s => if d = c then (true, s) else (false, d :: s)

def readString (s : Bytes) : Bytes × Bytes :=
  match matchChar quote s with
  | (false, s) => ([], s)
  | (true, s) => (s.takeWhile (· ≠ quote), (s.dropWhile (· ≠ quote)).drop 1)

def readKey (s : Bytes) : Bytes × Bytes := readString s

/-- Decimal digits as `ReadUInt64` adds them up, modulo 2^64. -/
def decimal (digits : Bytes) : UInt64 := digits.foldl (fun v c => v * 10 + (c - 48).toUInt64) 0

def readUInt64 (s : Bytes) : UInt64 × Bytes :=
  let s := skipWhitespace s
  (decimal (s.takeWhile isDigit), s.dropWhile isDigit)

/-- `(int)ReadUInt64(json, i)`. -/
def readInt (s : Bytes) : Int × Bytes :=
  let r := readUInt64 s
  (r.1.toUInt32.toInt32.toInt, r.2)

/-- `(uint32_t)ReadUInt64(json, i)`. -/
def readUInt32 (s : Bytes) : UInt32 × Bytes :=
  let r := readUInt64 s
  (r.1.toUInt32, r.2)

def readDouble (s : Bytes) : Float × Bytes :=
  let s := skipWhitespace s
  let v := (s.takeWhile isDigit).foldl (fun v c => v * 10.0 + (c - 48).toFloat) 0.0
  match s.dropWhile isDigit with
  | 46 :: s =>
    let r := (s.takeWhile isDigit).foldl
      (fun (p : Float × Float) c => (p.1 + (c - 48).toFloat * p.2, p.2 * 0.1)) (v, 0.1)
    (r.1, s.dropWhile isDigit)
  | s => (v, s)

def trimAscii (s : Bytes) : Bytes := ((s.dropWhile isSpace).reverse.dropWhile isSpace).reverse

/-- The loop of `TruncateUtf8` that backs off continuation bytes. -/
def utf8Cut (s : Bytes) : Nat → Nat
  | 0 => 0
  | i + 1 => if s.getD (i + 1) 0 &&& 0xC0 = 0x80 then utf8Cut s i else i + 1

def truncateUtf8 (s : Bytes) (maxBytes : Nat) : Bytes :=
  if s.length ≤ maxBytes then s else s.take (utf8Cut s maxBytes)

/-- The bytes that no scalar skipper of `ReadBlock` and `Load` stops at. -/
def insideScalar (c : UInt8) : Bool := c ≠ comma ∧ c ≠ closeBrace

/-- One turn of the `do` loop in `SkipJsonValue`, over the depth and the cursor. -/
def skipNestedTurn (p : Nat × Bytes) : (Nat × Bytes) × Bool :=
  match p.2 with
  | [] => (p, false)
  | c :: s =>
    let p' : Nat × Bytes :=
      if c = quote then (p.1, (readString p.2).2)
      else if c = openBrace ∨ c = openBracket then (p.1 + 1, s)
      else if c = closeBrace ∨ c = closeBracket then (p.1 - 1, s)
      else (p.1, s)
    (p', p'.2 ≠ [] ∧ 0 < p'.1)

def skipNested (p : Nat × Bytes) : Nat × Bytes := Loop.run (fun p => p.2.length) skipNestedTurn p

def skipJsonValue (s : Bytes) : Bytes :=
  let s := skipWhitespace s
  if s = [] then s
  else if peek s = quote then (readString s).2
  else if peek s = openBrace ∨ peek s = openBracket then (skipNested (0, s)).2
  else s.dropWhile fun c => c ≠ comma ∧ c ≠ closeBrace ∧ c ≠ closeBracket

/-- A loop that counts one kind of brackets, in strings too, until the depth is back to zero. -/
def skipBrackets (opening closing : UInt8) : Nat → Bytes → Bytes
  | 0, s => s
  | _ + 1, [] => []
  | d + 1, c :: s =>
    skipBrackets opening closing (if c = opening then d + 2 else if c = closing then d else d + 1) s

/-- The end of a turn in `ReadBlock`. The bracket loops start on the bracket they have counted. -/
def skipBlockValue (s : Bytes) : Bytes :=
  if peek s = openBrace then skipBrackets openBrace closeBrace 1 s
  else if peek s = openBracket then skipBrackets openBracket closeBracket 1 s
  else s.dropWhile insideScalar

/-- The skipper of unknown top-level keys in `Load`: its `++i` steps over one byte too many. -/
def skipTopValue (s : Bytes) : Bytes :=
  if peek s = openBrace then (skipBrackets openBrace closeBrace 1 (s.drop 1)).drop 1
  else if peek s = openBracket then (skipBrackets openBracket closeBracket 1 (s.drop 1)).drop 1
  else s.dropWhile insideScalar

variable {α : Type}

/-- One turn of the loop that every reader of an object runs: a key, a colon, what the reader does
with the member, and a comma. -/
def memberTurn (member : Bytes → α → Bytes → α × Bytes) (p : α × Bytes) : (α × Bytes) × Bool :=
  let s := skipWhitespace p.2
  if s = [] ∨ peek s = closeBrace then ((p.1, s), false)
  else
    let key := readKey s
    if key.1 = [] then ((p.1, key.2), false)
    else
      let afterKey := matchChar colon key.2
      if !afterKey.1 then ((p.1, afterKey.2), false)
      else
        let read := member key.1 p.1 afterKey.2
        let afterValue := matchChar comma read.2
        ((read.1, afterValue.2), afterValue.1)

/-- The whole loop, and the closing brace behind it. -/
def readMembers (member : Bytes → α → Bytes → α × Bytes) (p : α × Bytes) : α × Bytes :=
  let q := Loop.run (fun p => p.2.length) (memberTurn member) p
  (q.1, (matchChar closeBrace q.2).2)

/-- What `ReadBlock` does with a member: the callback, then its own skipper. -/
def blockMember (onKey : Bytes → α → Bytes → α × Bytes) (key : Bytes) (x : α) (s : Bytes) :
    α × Bytes :=
  let read := onKey key x s
  (read.1, skipBlockValue read.2)

def readBlock (onKey : Bytes → α → Bytes → α × Bytes) (p : α × Bytes) : α × Bytes :=
  let brace := matchChar openBrace p.2
  if brace.1 then readMembers (blockMember onKey) (p.1, brace.2) else (p.1, brace.2)

end Botid
