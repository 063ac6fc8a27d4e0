import Chip8.Memory

/-!
# Programs

A program is an image of bytes that fits between the start address and the end of memory. Images
come as bytes or from a source that may break off; a source that breaks off yields no program,
however many bytes came before.
-/

namespace Chip8

/-- Why an image did not become a program. -/
inductive LoadError where
  /-- The source broke off. -/
  | unreadable (reason : String)
  /-- The image has `size` bytes, more than there is room for. -/
  | tooLarge (size : Nat)
deriving DecidableEq, Repr

/-- The wording of a load error. -/
def LoadError.message : LoadError → String
  | unreadable reason => "could not read program image: " ++ reason
  | tooLarge size =>
    "program image is " ++ toString size ++ " bytes, at most " ++ toString Memory.programRoom ++
      " fit in memory"

/-- Where an image is read from: the bytes that come, and why no more come if the source breaks off
after them. -/
structure ByteSource where
  bytes : Array UInt8
  failure : Option String
deriving DecidableEq

/-- An image that fits in memory. -/
structure Program where
  bytes : Array UInt8
  fits : bytes.size ≤ Memory.programRoom
deriving DecidableEq

namespace Program

/-- The program without bytes. -/
def empty : Program :=
  ⟨#[], by decide⟩

/-- The number of bytes. -/
def size (program : Program) : Nat :=
  program.bytes.size

/-- Whether there are no bytes. -/
def isEmpty (program : Program) : Bool :=
  program.bytes.isEmpty

/-- The program of an image, if the image fits. -/
def ofBytes (bytes : Array UInt8) : Except LoadError Program :=
  if h : bytes.size ≤ Memory.programRoom then .ok ⟨bytes, h⟩ else .error (.tooLarge bytes.size)

/-- The program that a source yields, if the source does not break off and its bytes fit. -/
def ofSource (source : ByteSource) : Except LoadError Program :=
  match source.failure with
  | some reason => .error (.unreadable reason)
  | none => ofBytes source.bytes

end Program

end Chip8
