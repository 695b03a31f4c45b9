import WordC.Text.Hex
import WordC.Text.Printable

namespace WordC.Text

def singleQuote : Char := '\x27'
def doubleQuote : Char := '\x22'

-- The quote that surrounds a text: single, unless the text holds a single quote and no double one.
def quoteFor (text : List Char) : Char :=
  if text.contains singleQuote && !text.contains doubleQuote then doubleQuote else singleQuote

-- A character that has no printed form is written by its code point, in the shortest of three widths.
def codePoint (c : Char) : String :=
  let n := c.toNat
  if n ≤ 0xff then "\\x" ++ hexLower 2 n
  else if n ≤ 0xffff then "\\u" ++ hexLower 4 n
  else "\\U" ++ hexLower 8 n

def quotedChar (quote c : Char) : String :=
  if c = quote || c = '\\' then String.ofList ['\\', c]
  else if c = '\n' then "\\n"
  else if c = '\r' then "\\r"
  else if c = '\t' then "\\t"
  else if isPrintable c then String.singleton c
  else codePoint c

-- A text between quotes, on one line and with every character visible.
def quoted (text : String) : String :=
  let quote := quoteFor text.toList
  String.singleton quote ++ String.join (text.toList.map (quotedChar quote)) ++ String.singleton quote

end WordC.Text
