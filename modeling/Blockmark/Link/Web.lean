import Blockmark.Link.Scheme
import Blockmark.Link.Target
import Blockmark.Text.Lines

/-!
# Web addresses

Which texts are absolute addresses with the scheme `http` or `https`, by the rules of the URL
standard: a lenient scheme and authority, a host that is a domain name, an IPv4 address or an IPv6
address in brackets, and behind a colon a number of 16 bits.
-/

namespace Blockmark.Link

open Json (hexValue? natOfDigits)
open Text (pieces isDigit)

/-- The text without what an address may be wrapped in: control characters and spaces at its ends,
tabs and line ends anywhere. -/
def cleanAddress (text : List Char) : List Char :=
  let outer (c : Char) : Bool := c.toNat ≤ 0x20
  ((text.dropWhile outer).reverse.dropWhile outer).reverse.filter
    fun c => !(c == '\t' || c == '\n' || c == '\r')

def splitScheme? (text : List Char) : Option (List Char × List Char) :=
  match text.span (· != ':') with
  | (scheme, ':' :: rest) => if isScheme scheme then some (Text.lower scheme, rest) else none
  | _ => none

def isSlash (c : Char) : Bool :=
  c == '/' || c == '\\'

def authority (text : List Char) : List Char :=
  (text.dropWhile isSlash).takeWhile fun c => !(isSlash c || c == '?' || c == '#')

def dropUserInfo (text : List Char) : List Char :=
  (text.reverse.takeWhile (· != '@')).reverse

/-- Splits an authority in front of the first colon that is not in brackets. -/
def splitPort (bracketed : Bool) : List Char → List Char × List Char
  | [] => ([], [])
  | c :: rest =>
    if c = ':' ∧ bracketed = false then ([], c :: rest)
    else
      let inside := if c = '[' then true else if c = ']' then false else bracketed
      let (host, behind) := splitPort inside rest
      (c :: host, behind)

def isPort : List Char → Bool
  | [] => true
  | _ :: digits => digits.all isDigit && natOfDigits digits ≤ 65535

def isForbiddenInDomain (c : Char) : Bool :=
  c.toNat < 0x20 || c.toNat == 0x7F ||
    [' ', '#', '%', '/', ':', '<', '>', '?', '@', '[', '\\', ']', '^', '|'].contains c

def numberOfBase? (base : Nat) (digits : List Char) : Option Nat :=
  digits.foldlM (fun n c => do
    let digit ← hexValue? c
    if digit < base then some (n * base + digit) else none) 0

/-- The number of one part of an IPv4 address: hexadecimal behind `0x`, octal behind `0`, else
decimal. No digits behind the mark mean zero. -/
def ipv4Number? : List Char → Option Nat
  | [] => none
  | '0' :: 'x' :: digits => numberOfBase? 16 digits
  | '0' :: 'X' :: digits => numberOfBase? 16 digits
  | '0' :: c :: digits => numberOfBase? 8 (c :: digits)
  | digits => numberOfBase? 10 digits

def hostLabels (host : List Char) : List (List Char) :=
  let labels := pieces '.' host
  if 1 < labels.length && labels.getLast? = some [] then labels.dropLast else labels

/-- Whether a host can only be an IPv4 address, because its last label is a number. -/
def endsInNumber (host : List Char) : Bool :=
  match (hostLabels host).getLast? with
  | none | some [] => false
  | some last => last.all isDigit || (ipv4Number? last).isSome

/-- One to four numbers; all but the last are octets, and the last one fills what they leave. -/
def isIpv4 (host : List Char) : Bool :=
  match (hostLabels host).mapM ipv4Number? with
  | none => false
  | some numbers =>
    match numbers.getLast? with
    | none => false
    | some last =>
      numbers.length ≤ 4 && last < twoTo (8 * (5 - numbers.length)) && numbers.dropLast.all (· < 256)

/-- Four decimal octets without superfluous zeros. -/
def isDottedQuad (text : List Char) : Bool :=
  let parts := pieces '.' text
  parts.length == 4 && parts.all fun part =>
    !part.isEmpty && part.all isDigit && natOfDigits part < 256 &&
      (part.length == 1 || part.head? != some '0')

/-- Whether a text fills the groups of an IPv6 address of which `left` are still open. `compressed`
says whether a double colon was seen, which stands for one or more groups. -/
def isIpv6Rest : (left : Nat) → (compressed : Bool) → List Char → Bool
  | left, compressed, [] => compressed || left == 0
  | 0, _, _ :: _ => false
  | left + 1, compressed, c :: rest =>
    if c = ':' then !compressed && isIpv6Rest left true rest
    else
      let text := c :: rest
      let digits := (text.take 4).takeWhile fun c => (hexValue? c).isSome
      match text.drop digits.length with
      | [] => isIpv6Rest left compressed []
      | ':' :: more => !more.isEmpty && isIpv6Rest left compressed more
      | '.' :: _ =>
        !digits.isEmpty && 1 ≤ left && isDottedQuad text && (compressed || left == 1)
      | _ => false

def isIpv6 : List Char → Bool
  | ':' :: ':' :: rest => isIpv6Rest 7 true rest
  | ':' :: _ => false
  | text => isIpv6Rest 8 false text

def isHost (host : List Char) : Bool :=
  match host with
  | [] => false
  | '[' :: rest => rest.getLast? == some ']' && isIpv6 rest.dropLast
  | host =>
    match percentDecode? host with
    | none => false
    | some domain =>
      !domain.any isForbiddenInDomain && (!endsInNumber domain || isIpv4 domain)

def isWebAddress (text : List Char) : Bool :=
  match splitScheme? (cleanAddress text) with
  | none => false
  | some (scheme, rest) =>
    (scheme == ['h', 't', 't', 'p'] || scheme == ['h', 't', 't', 'p', 's']) &&
      let (host, behind) := splitPort false (dropUserInfo (authority rest))
      isHost host && isPort behind

end Blockmark.Link
