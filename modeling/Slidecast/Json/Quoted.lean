import Slidecast.Text.HexDigit
import Slidecast.Json.Fault

/-!
# Strings in JSON texts

A string stands between quotes.  A backslash introduces the name of a character: a letter or
sign of its own, or `u` and the four hexadecimal digits of a code unit.  A code unit of the high
surrogates has to be followed by one of the low surrogates, and the two name one character.
Control characters have to be named.

`quote` writes a string; `unquote` reads what follows the opening quote.
-/

set_option autoImplicit false

namespace Slidecast.Json

/-! ## Writing -/

/-- How a character stands inside quotes. -/
def quoteChar (c : Char) : List Char :=
  if c = '"' then ['\\', '"']
  else if c = '\\' then ['\\', '\\']
  else if c = '\x08' then ['\\', 'b']
  else if c = '\x0C' then ['\\', 'f']
  else if c = '\n' then ['\\', 'n']
  else if c = '\r' then ['\\', 'r']
  else if c = '\t' then ['\\', 't']
  else if c.toNat < 0x20 then
    ['\\', 'u', '0', '0', Text.hexDigit (c.toNat / 16), Text.hexDigit (c.toNat % 16)]
  else [c]

/-- A string between quotes. -/
def quote (text : String) : List Char :=
  '"' :: text.toList.flatMap quoteChar ++ ['"']

/-! ## Reading -/

/-- Reads the four hexadecimal digits of a code unit.  The text ends too early when fewer than
four bytes are left. -/
def codeUnit (cs : List Char) : Except Fault (Nat × List Char) :=
  if (cs.take 4).foldl (fun size c => size + c.utf8Size) 0 < 4 then .error .endOfText
  else
    match cs with
    | a :: b :: c :: d :: rest =>
        match Text.hexValue? a, Text.hexValue? b, Text.hexValue? c, Text.hexValue? d with
        | some a, some b, some c, some d => .ok (((a * 16 + b) * 16 + c) * 16 + d, rest)
        | _, _, _, _ => .error .malformed
    | _ => .error .malformed

def isHighSurrogate (n : Nat) : Bool := 0xD800 ≤ n && n ≤ 0xDBFF
def isLowSurrogate (n : Nat) : Bool := 0xDC00 ≤ n && n ≤ 0xDFFF

/-- Reads the character that `\u` names. -/
def namedByUnit (cs : List Char) : Except Fault (Char × List Char) := do
  let (high, rest) ← codeUnit cs
  if isLowSurrogate high then .error .malformed
  else if isHighSurrogate high then
    match rest with
    | [] => .error .endOfText
    | '\\' :: [] => .error .endOfText
    | '\\' :: 'u' :: rest =>
        let (low, rest) ← codeUnit rest
        if isLowSurrogate low then
          .ok (Char.ofNat (0x10000 + (high - 0xD800) * 0x400 + (low - 0xDC00)), rest)
        else .error .malformed
    | _ => .error .malformed
  else .ok (Char.ofNat high, rest)

/-- The characters that a backslash and one sign name. -/
def namedBySign? (c : Char) : Option Char :=
  if c = '"' then some '"'
  else if c = '\\' then some '\\'
  else if c = '/' then some '/'
  else if c = 'b' then some '\x08'
  else if c = 'f' then some '\x0C'
  else if c = 'n' then some '\n'
  else if c = 'r' then some '\r'
  else if c = 't' then some '\t'
  else none

/-- Reads the character that is named behind a backslash. -/
def named (cs : List Char) : Except Fault (Char × List Char) :=
  match cs with
  | [] => .error .endOfText
  | 'u' :: rest => namedByUnit rest
  | c :: rest =>
      match namedBySign? c with
      | some c => .ok (c, rest)
      | none => .error .malformed

/-- Reads the characters up to the closing quote, at most as many as the number says. -/
def unquoteWithin : Nat → List Char → Except Fault (List Char × List Char)
  | 0, _ => .error .endOfText
  | fuel + 1, cs =>
      match cs with
      | [] => .error .endOfText
      | '"' :: rest => .ok ([], rest)
      | '\\' :: rest => do
          let (c, rest) ← named rest
          let (text, rest) ← unquoteWithin fuel rest
          .ok (c :: text, rest)
      | c :: rest =>
          if c.toNat < 0x20 then .error .malformed
          else do
            let (text, rest) ← unquoteWithin fuel rest
            .ok (c :: text, rest)

/-- Reads a string behind its opening quote. -/
def unquote (cs : List Char) : Except Fault (String × List Char) := do
  let (text, rest) ← unquoteWithin (cs.length + 1) cs
  .ok (String.ofList text, rest)

/-- Passes over the characters up to the closing quote; any code unit may be named. -/
def skipQuotedWithin : Nat → List Char → Except Fault (List Char)
  | 0, _ => .error .endOfText
  | fuel + 1, cs =>
      match cs with
      | [] => .error .endOfText
      | '"' :: rest => .ok rest
      | '\\' :: [] => .error .endOfText
      | '\\' :: 'u' :: rest => do
          let (_, rest) ← codeUnit rest
          skipQuotedWithin fuel rest
      | '\\' :: c :: rest =>
          if (namedBySign? c).isSome then skipQuotedWithin fuel rest else .error .malformed
      | c :: rest =>
          if c.toNat < 0x20 then .error .malformed else skipQuotedWithin fuel rest

/-- Passes over a string behind its opening quote. -/
def skipQuoted (cs : List Char) : Except Fault (List Char) := skipQuotedWithin (cs.length + 1) cs

end Slidecast.Json
