/-!
# Refusals of the operating system

The few refusals that a server reports, with their customary numbers and wording. What is refused
before the system is asked, or after it has answered, has no number.
-/

namespace SensorIngest

/-- A refusal of the operating system. -/
inductive SystemError where
  | noSuchFile
  | fileExists
  | notADirectory
  | isADirectory
  | noSpace
  | nameTooLong
  | addressInUse
  | networkUnreachable
  /-- A path holds the character that ends texts. -/
  | zeroInName
  /-- A text was asked for, but the bytes are none. -/
  | notText
deriving DecidableEq

namespace SystemError

def code? : SystemError → Option Nat
  | noSuchFile => some 2
  | fileExists => some 17
  | notADirectory => some 20
  | isADirectory => some 21
  | noSpace => some 28
  | nameTooLong => some 36
  | addressInUse => some 98
  | networkUnreachable => some 101
  | zeroInName => none
  | notText => none

def text : SystemError → String
  | noSuchFile => "No such file or directory"
  | fileExists => "File exists"
  | notADirectory => "Not a directory"
  | isADirectory => "Is a directory"
  | noSpace => "No space left on device"
  | nameTooLong => "File name too long"
  | addressInUse => "Address already in use"
  | networkUnreachable => "Network is unreachable"
  | zeroInName => "file name contained an unexpected NUL byte"
  | notText => "stream did not contain valid UTF-8"

def message (e : SystemError) : String :=
  match e.code? with
  | some code => s!"{e.text} (os error {code})"
  | none => e.text

end SystemError

end SensorIngest
