import Overseer.Text.Occurrence

/-!
The processor families that worker builds are shipped for.
-/

namespace Overseer

inductive Platform where
  | arm64
  | x86_64
  | arm
  | x86
deriving DecidableEq, Repr

namespace Platform

/-- The family of a processor, by its name in any case; 32-bit ARM for one that is not known.

Raising ASCII letters is enough: a letter whose upper-case form merely begins with an ASCII letter
goes on with a mark that none of these names has, and no other letter has such a form among the
letters used here. -/
def ofArch (arch : String) : Platform :=
  let name := String.ofList (arch.toList.map Char.toUpper)
  let mentions (text : String) : Bool := Text.occursIn text name
  if mentions "ARM64" || mentions "AARCH64" then .arm64
  else if mentions "X86_64" || mentions "AMD64" then .x86_64
  else if mentions "ARM" then .arm
  else if mentions "86" then .x86
  else .arm

def name : Platform → String
  | arm64 => "Arm64"
  | x86_64 => "X86_64"
  | arm => "Arm"
  | x86 => "X86"

/-- All families. -/
def all : List Platform := [arm64, x86_64, arm, x86]

/-- The directory with the builds for a family. -/
def assetDir : Platform → String
  | arm64 => "arm64-v8a"
  | x86_64 => "x86_64"
  | arm => "armeabi-v7a"
  | x86 => "x86"

end Platform

end Overseer
