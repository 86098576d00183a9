/-!
# UTF-8

Reading octets as text. A fault says where the first ill-formed sequence starts and how many
octets of it could still have begun a character, or that the input ends inside a sequence.
-/

namespace Blockmark.Text

inductive Utf8Fault
  | invalid (start length : Nat)
  | incomplete (start : Nat)
  deriving DecidableEq, Repr

def Utf8Fault.message : Utf8Fault → String
  | .invalid start length =>
    "invalid utf-8 sequence of " ++ toString length ++ " bytes from index " ++ toString start
  | .incomplete start => "incomplete utf-8 byte sequence from index " ++ toString start

/-- A sequence whose first octets are read: the value so far, how many octets are read, how many
are to come, and the range of the next one. -/
structure OpenSequence where
  value : Nat
  seen : Nat
  missing : Nat
  low : UInt8
  high : UInt8

/-- What a first octet of a sequence of several octets announces. The range of the second octet
excludes overlong forms, surrogates and values above U+10FFFF. -/
def OpenSequence.ofLead? (lead : UInt8) : Option OpenSequence :=
  let n := lead.toNat
  if 0xC2 ≤ n && n ≤ 0xDF then some ⟨n - 0xC0, 1, 1, 0x80, 0xBF⟩
  else if n = 0xE0 then some ⟨0, 1, 2, 0xA0, 0xBF⟩
  else if n = 0xED then some ⟨0xD, 1, 2, 0x80, 0x9F⟩
  else if 0xE1 ≤ n && n ≤ 0xEF then some ⟨n - 0xE0, 1, 2, 0x80, 0xBF⟩
  else if n = 0xF0 then some ⟨0, 1, 3, 0x90, 0xBF⟩
  else if n = 0xF4 then some ⟨4, 1, 3, 0x80, 0x8F⟩
  else if 0xF1 ≤ n && n ≤ 0xF3 then some ⟨n - 0xF0, 1, 3, 0x80, 0xBF⟩
  else none

/-- Reads the octets from position `start` on, where an open sequence starts if there is one. The
characters before are held in reverse. -/
def readUtf8 (start : Nat) (pending : Option OpenSequence) (before : List Char) :
    List UInt8 → Except Utf8Fault (List Char)
  | [] =>
    match pending with
    | none => .ok before.reverse
    | some _ => .error (.incomplete start)
  | octet :: rest =>
    match pending with
    | none =>
      if octet < 0x80 then readUtf8 (start + 1) none (Char.ofNat octet.toNat :: before) rest
      else match OpenSequence.ofLead? octet with
        | none => .error (.invalid start 1)
        | some opened => readUtf8 start (some opened) before rest
    | some sequence =>
      if octet < sequence.low || sequence.high < octet then .error (.invalid start sequence.seen)
      else
        let value := sequence.value * 64 + (octet.toNat - 0x80)
        if sequence.missing ≤ 1 then
          readUtf8 (start + sequence.seen + 1) none (Char.ofNat value :: before) rest
        else
          readUtf8 start (some ⟨value, sequence.seen + 1, sequence.missing - 1, 0x80, 0xBF⟩)
            before rest

def decodeUtf8 (octets : List UInt8) : Except Utf8Fault (List Char) :=
  readUtf8 0 none [] octets

def encodeUtf8 (text : List Char) : List UInt8 :=
  text.flatMap String.utf8EncodeChar

end Blockmark.Text
