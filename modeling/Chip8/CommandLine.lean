import Chip8.Settings

/-!
# The command line

A program is played with `chip8 [options] image`. Options may come before or after the image; those
that take a number have it as the next argument.
-/

namespace Chip8.CommandLine

/-- What the arguments ask for. -/
structure Request where
  /-- Where the program image is. -/
  image : String
  settings : Settings
deriving DecidableEq, Repr

/-- Why arguments make no request. -/
inductive UsageError where
  | missingImage
  | missingValue (option : String)
  | invalidValue (option value : String)
  | unexpected (argument : String)
deriving DecidableEq, Repr

/-- The wording of a usage error. -/
def UsageError.message : UsageError → String
  | missingImage => "no program image is given"
  | missingValue option => option ++ " needs a number"
  | invalidValue option value => value ++ " is no value for " ++ option
  | unexpected argument => "unexpected argument " ++ argument

/-- The options that stand alone. -/
def switch? : String → Option (Settings → Settings)
  | "--conventional-transfer" => some fun s => s.setTransfer .standard
  | "--halt-on-unknown" => some fun s => s.setOnUnknown .stop
  | _ => none

/-- The options that take a number, with the number of bits that it may have. -/
def setting? : String → Option (Nat × (Settings → Nat → Settings))
  | "--cycles-per-frame" => some (32, Settings.setFrameLength)
  | "--seed" => some (64, fun s seed => s.setSeed (UInt64.ofNat seed))
  | "--scale" => some (32, Settings.setMagnification)
  | _ => none

/-- Reads the arguments that are left, given what those before them have said. -/
def parseFrom (image : Option String) (settings : Settings) :
    List String → Except UsageError Request
  | [] =>
    match image with
    | some image => .ok ⟨image, settings⟩
    | none => .error .missingImage
  | argument :: rest =>
    match switch? argument with
    | some change => parseFrom image (change settings) rest
    | none =>
      match setting? argument with
      | some (bits, change) =>
        match rest with
        | [] => .error (.missingValue argument)
        | value :: rest =>
          match value.toNat? with
          | some number =>
            if number < 2 ^ bits then parseFrom image (change settings number) rest
            else .error (.invalidValue argument value)
          | none => .error (.invalidValue argument value)
      | none =>
        if image.isNone && !argument.startsWith "-" then parseFrom (some argument) settings rest
        else .error (.unexpected argument)

/-- Reads the arguments, starting from settings for a terminal, where a pixel is one character. -/
def parse (arguments : List String) : Except UsageError Request :=
  parseFrom none (({} : Settings).setMagnification 1) arguments

end Chip8.CommandLine
