/-!
Contract: the lines of an input that arrives in chunks of bytes.

A line ends with a line feed or with the input. The line feed is no part of the line,
and neither is one carriage return right before it. Interrupts may come while a
chunk is read; they belong to the line in which the chunk starts.

Owns: the cutting of chunks into lines.
-/

set_option autoImplicit false

namespace FormLang.Console

/-- A piece of the input, with the number of interrupts that come as it is read. -/
structure Chunk where
  bytes : ByteArray
  interrupts : Nat

/-- A line of the input: its text, unless its bytes encode none, and the number of
interrupts that come as it is read. -/
structure Line where
  text : Option String
  interrupts : Nat
deriving DecidableEq, Repr

def lineFeed : UInt8 := 0x0A

/-- The carriage return, which may stand in front of a line feed. -/
def carriageReturn : UInt8 := 0x0D

/-- The bytes of a line that a line feed ends, last byte first, without the carriage
return. -/
def dropReturn : List UInt8 → List UInt8
  | [] => []
  | last :: rest => if last = carriageReturn then rest else last :: rest

def lineOf (reversed : List UInt8) (interrupts : Nat) : Line :=
  ⟨String.fromUTF8? ⟨reversed.reverse.toArray⟩, interrupts⟩

/-- A byte of the input with the interrupts that come right before it is read. -/
abbrev TimedByte := UInt8 × Nat

/-- The bytes of a chunk; its interrupts come before the first of them. -/
def Chunk.timed (chunk : Chunk) : List TimedByte :=
  match chunk.bytes.data.toList with
  | [] => []
  | first :: rest => (first, chunk.interrupts) :: rest.map fun byte => (byte, 0)

/-- The lines of the remaining bytes, where a line has been read in part. -/
def splitLines (reversed : List UInt8) (interrupts : Nat) : List TimedByte → List Line
  | [] => if reversed.isEmpty then [] else [lineOf reversed interrupts]
  | (byte, count) :: rest =>
      if byte = lineFeed then
        lineOf (dropReturn reversed) (interrupts + count) :: splitLines [] 0 rest
      else
        splitLines (byte :: reversed) (interrupts + count) rest

def linesOf (chunks : List Chunk) : List Line :=
  splitLines [] 0 (chunks.flatMap Chunk.timed)

end FormLang.Console
