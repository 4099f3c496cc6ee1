import Criteria.Text.Numeral
import Criteria.Yaml.Source

/-!
This module contains the reading of tags. A tag is a URI, of which a handle may abbreviate the first part.
-/

namespace Criteria.Yaml

def isNameChar (c : Char) : Bool := c.isAlphanum || c = '_' || c = '-'

def isTagChar (c : Char) : Bool :=
  isNameChar c ||
    [';', '/', '?', ':', '@', '&', '=', '+', '$', '.', '!', '~', '*', '\'', '(', ')'].contains c

def isUriChar (c : Char) : Bool :=
  isTagChar c || c = ',' || c = '[' || c = ']'

def octet? : Source → Option (Nat × Source)
  | ⟨'%', _⟩ :: a :: b :: s => (Text.hexadecimal? [a.char, b.char]).map fun octet => (octet, s)
  | _ => none

def furtherOctets? : Nat → Nat → Source → Option (Nat × Source)
  | 0, value, s => some (value, s)
  | n + 1, value, s => do
    let (octet, s) ← octet? s
    guard (0x80 ≤ octet && octet < 0xC0)
    furtherOctets? n (64 * value + (octet - 0x80)) s

def octets? (s : Source) : Option (Char × Source) := do
  let (first, s) ← octet? s
  let (value, s) ←
    if first < 0x80 then some (first, s)
    else if 0xC0 ≤ first && first < 0xE0 then furtherOctets? 1 (first - 0xC0) s
    else if 0xE0 ≤ first && first < 0xF0 then furtherOctets? 2 (first - 0xE0) s
    else if 0xF0 ≤ first && first < 0xF8 then furtherOctets? 3 (first - 0xF0) s
    else none
  return (Char.ofNat value, s)

def uriChars? (p : Char → Bool) : Nat → Source → Option (List Char × Source)
  | 0, s => some ([], s)
  | _, [] => some ([], [])
  | fuel + 1, c :: s => do
    if c.char = '%' then
      let (character, s) ← octets? (c :: s)
      let (characters, s) ← uriChars? p fuel s
      return (character :: characters, s)
    else if p c.char then
      let (characters, s) ← uriChars? p fuel s
      return (c.char :: characters, s)
    else
      return ([], c :: s)

def uri? (p : Char → Bool) (s : Source) : Option (String × Source) := do
  let (characters, rest) ← uriChars? p s.length s
  guard (!characters.isEmpty)
  return (String.ofList characters, rest)

abbrev Handles := List (String × String)

def standardHandles : Handles := [("!", "!"), ("!!", "tag:yaml.org,2002:")]

def longHandle? (s : Source) : Option (String × Source) :=
  match s with
  | ⟨'!', _⟩ :: s =>
    let (name, rest) := Source.readWhile isNameChar s
    if rest.startsWith (· = '!') then
      some ("!" ++ String.ofList name ++ "!", rest.drop 1)
    else none
  | _ => none

def anyTag? (handles : Handles) (s : Source) : Option (String × Source) :=
  match longHandle? s, s with
  | some (handle, rest), _ => do
    let (ending, rest) ← uri? isTagChar rest
    return ((← handles.lookup handle) ++ ending, rest)
  | none, ⟨'!', _⟩ :: ⟨'<', _⟩ :: s => do
    let (uri, rest) ← uri? isUriChar s
    guard (rest.startsWith (· = '>'))
    return (uri, rest.drop 1)
  | none, ⟨'!', _⟩ :: s =>
    match uri? isTagChar s with
    | some (ending, rest) => (handles.lookup "!").map fun start => (start ++ ending, rest)
    | none => some ("!", s)
  | none, _ => none

def tag? (handles : Handles) (s : Source) : Option (String × Source) :=
  (anyTag? handles s).filter fun (_, rest) => rest.isSeparated

end Criteria.Yaml
