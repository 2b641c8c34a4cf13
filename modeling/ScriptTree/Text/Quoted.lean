/-
  Quoted text: how a text is shown so that its ends and its invisible characters can be seen.

  A quoted text stands between double quotes.  A quote or a backslash inside it takes a backslash,
  four control characters have a letter each, every other unprintable character is written by its
  code point in lower-case hexadecimal between braces, and all else stands as itself.  Since every
  escape starts with a backslash and no plain character is one, the quoted text determines the
  text.
-/
import ScriptTree.Text.Unprintable

namespace ScriptTree.Text

/-- A code point as `\u` and lower-case hexadecimal digits between braces, without padding. -/
def codeEscape (c : Char) : List Char :=
  '\\' :: 'u' :: '\x7b' :: (Nat.toDigits 16 c.toNat ++ ['\x7d'])

/-- One character inside a quoted text. -/
def quoteChar (c : Char) : List Char :=
  match c with
  | '"' => ['\\', '"']
  | '\\' => ['\\', '\\']
  | '\x00' => ['\\', '0']
  | '\t' => ['\\', 't']
  | '\r' => ['\\', 'r']
  | '\n' => ['\\', 'n']
  | c => if isUnprintable c then codeEscape c else [c]

/-- A text between double quotes, with everything escaped that could mislead a reader. -/
def quote (s : String) : String :=
  String.ofList ('"' :: (s.toList.flatMap quoteChar ++ ['"']))

/-! ## What quoting looks like -/

example : quote "a\"b\\c'" = "\"a\\\"b\\\\c'\"" := by decide +kernel
example : quote "\n\x7f" = "\"\\n\\u\x7b7f\x7d\"" := by decide +kernel

end ScriptTree.Text
