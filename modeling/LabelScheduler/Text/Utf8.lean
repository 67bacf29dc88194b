import LabelScheduler.Text.Quoted

/-!
# Text from bytes

Files are read block by block. A block is decoded together with the bytes that an unfinished
character left over from the block before, and a fault is located from the first of these. Only
shortest forms of code points that are not surrogates are accepted.
-/

namespace LabelScheduler.Text.Utf8

/-- Why bytes are no text. -/
inductive Reason where
  | invalidStart
  | invalidContinuation
  | unexpectedEnd
  deriving DecidableEq

/-- Where decoding failed: the first byte at fault, its position and the number of bytes at fault.
-/
structure Fault where
  reason : Reason
  byte : UInt8
  position : Nat
  width : Nat
  deriving DecidableEq

/-- What the bytes read of one character amount to. -/
inductive Progress where
  | complete (c : Char)
  | unfinished
  | wrong (reason : Reason) (width : Nat)

/-- A byte that continues a character. -/
def isContinuation (b : UInt8) : Bool := 0x80 ≤ b && b < 0xc0

/-- The six bits that a continuation carries. -/
def payload (b : UInt8) : Nat := b.toNat % 64

/-- A second byte that may follow a given first byte: no longer form than needed, nothing past the
last code point. -/
def followsLead (lead second : UInt8) : Bool :=
  isContinuation second &&
    !(lead == 0xe0 && second < 0xa0) && !(lead == 0xf0 && second < 0x90) &&
    !(lead == 0xf4 && 0x90 ≤ second)

/-- The first two bytes of a surrogate, which stands for no character. -/
def opensSurrogate (lead second : UInt8) : Bool := lead == 0xed && 0xa0 ≤ second

/-- Judge the bytes of a character, of which all but the last were judged unfinished before. A
surrogate is only refused at its third byte. -/
def progress : List UInt8 → Progress
  | [a] =>
    if a < 0x80 then .complete (Char.ofNat a.toNat)
    else if a < 0xc2 || 0xf5 ≤ a then .wrong .invalidStart 1
    else .unfinished
  | [a, b] =>
    if !followsLead a b then .wrong .invalidContinuation 1
    else if a < 0xe0 then .complete (Char.ofNat ((a.toNat - 0xc0) * 64 + payload b))
    else .unfinished
  | [a, b, c] =>
    if opensSurrogate a b then .wrong .invalidContinuation 1
    else if !isContinuation c then .wrong .invalidContinuation 2
    else if a < 0xf0 then
      .complete (Char.ofNat ((a.toNat - 0xe0) * 4096 + payload b * 64 + payload c))
    else .unfinished
  | [a, b, c, d] =>
    if !isContinuation d then .wrong .invalidContinuation 3
    else .complete (Char.ofNat
      ((a.toNat - 0xf0) * 262144 + payload b * 4096 + payload c * 64 + payload d))
  | _ => .unfinished

/-- Decode the bytes of a block: `held` are the bytes of the character that began at `start`, and
`done` the characters before it, last first. The answer is the text and the bytes left over. -/
def decodeFrom (start : Nat) (held : List UInt8) (done : List Char) :
    List UInt8 → Except Fault (List Char × List UInt8)
  | [] => .ok (done.reverse, held)
  | b :: bs =>
    let bytes := held ++ [b]
    match progress bytes with
    | .complete c => decodeFrom (start + bytes.length) [] (c :: done) bs
    | .unfinished => decodeFrom start bytes done bs
    | .wrong reason width => .error ⟨reason, bytes.headD b, start, width⟩

/-- The fault of bytes that no further byte will follow. -/
def endFault? : List UInt8 → Option Fault
  | [] => none
  | [a, b] =>
    if opensSurrogate a b then some ⟨.invalidContinuation, a, 0, 1⟩
    else some ⟨.unexpectedEnd, a, 0, 2⟩
  | a :: rest => some ⟨.unexpectedEnd, a, 0, rest.length + 1⟩

/-- The number of bytes read at a time. -/
def blockSize : Nat := 8192

/-- Cut bytes into blocks of the given size; `room` is what still fits into the block being filled,
and `block` holds its bytes, last first. -/
def cut (size room : Nat) (block : List UInt8) : List UInt8 → List (List UInt8)
  | [] => if block.isEmpty then [] else [block.reverse]
  | b :: bs =>
    match room with
    | 0 => block.reverse :: cut size (size - 1) [b] bs
    | r + 1 => cut size r (b :: block) bs

/-- The text of the blocks up to the first fault, and that fault; a faulty block gives no text. -/
def decodeBlocks (held : List UInt8) (done : List (List Char)) :
    List (List UInt8) → List Char × Option Fault
  | [] => (done.reverse.flatten, endFault? held)
  | block :: blocks =>
    match decodeFrom 0 [] [] (held ++ block) with
    | .ok (text, rest) => decodeBlocks rest (text :: done) blocks
    | .error fault => (done.reverse.flatten, some fault)

/-- The text of a file up to the first faulty block, and the fault. -/
def decode (bytes : List UInt8) : List Char × Option Fault :=
  decodeBlocks [] [] (cut blockSize blockSize [] bytes)

/-- The reason in words. -/
def Reason.message : Reason → String
  | .invalidStart => "invalid start byte"
  | .invalidContinuation => "invalid continuation byte"
  | .unexpectedEnd => "unexpected end of data"

/-- The fault in words: one byte is shown, several are only located. -/
def Fault.message (f : Fault) : String :=
  "'utf-8' codec can't decode " ++
    (if f.width = 1 then
      "byte 0x" ++ String.ofList (hexDigits 2 f.byte.toNat) ++ " in position " ++
        toString f.position
    else
      "bytes in position " ++ toString f.position ++ "-" ++ toString (f.position + f.width - 1)) ++
    ": " ++ f.reason.message

end LabelScheduler.Text.Utf8
