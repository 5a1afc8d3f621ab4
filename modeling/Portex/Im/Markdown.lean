import Portex.Foundation.Dict
import Portex.Foundation.Regex
import Portex.Foundation.Replace

/-!
# Markdown for Telegram

`TelegramClient.markdown_to_html`: regular expressions one after the other set aside the code, the
links and the emphasis that is not supported, each for a placeholder, and turn what is left of the
emphasis into tags; in the end the placeholders are replaced once each, in the order in which they
were made. The identifiers that `uuid4` draws are a parameter.

## Main definitions

* `htmlEscape`: `html.escape`
* `TelegramClient.storeReplacement`: the dictionary `replacements`
* `TelegramClient.conversion`: the text with its placeholders
* `TelegramClient.markdownToHtml`: the method
-/

namespace Portex

open Foundation

/-- A `uuid4`, by its hexadecimal digits. -/
abbrev Uuid := Fin 32 → Fin 16

def hexDigits : List Char :=
  ['0', '1', '2', '3', '4', '5', '6', '7', '8', '9', 'a', 'b', 'c', 'd', 'e', 'f']

/-- `uuid4().hex`. -/
def Uuid.hex (uuid : Uuid) : List Char := (List.ofFn uuid).map fun d => hexDigits.get d

def htmlEscapeChar (c : Char) : List Char :=
  if c = '&' then "&amp;".toList
  else if c = '<' then "&lt;".toList
  else if c = '>' then "&gt;".toList
  else if c = '"' then "&quot;".toList
  else if c = '\'' then "&#x27;".toList
  else [c]

/-- `html.escape`, which replaces the ampersands first. -/
def htmlEscape (text : List Char) : List Char := text.flatMap htmlEscapeChar

/-- One character of a pattern. -/
def lit (c : Char) : Piece Char := .one (· == c)

/-- The class of all characters but some. -/
def noneOf (excluded : List Char) (c : Char) : Bool := !excluded.contains c

namespace TelegramClient

/-- The number of identifiers drawn, and `replacements`. -/
structure Stash where
  calls : ℕ
  replacements : Dict (List Char) (List Char)

def placeholder (label hex : List Char) : List Char :=
  "@@PORTEX_".toList ++ label ++ "_".toList ++ hex ++ "@@".toList

/-- The patterns, in their order. -/
def codeBlock : Pattern Char where
  pieces := [lit '`', lit '`', lit '`', .many (noneOf ['\n', '`']) false false,
    .optional (· == '\n'), .many (fun _ => true) false true, lit '`', lit '`', lit '`']

def markdownLink : Pattern Char where
  pieces := [lit '[', .many (noneOf [']']) true false, lit ']',
    lit '(', .many (noneOf [')']) true false, lit ')']

def inlineCode : Pattern Char where
  pieces := [lit '`', .many (noneOf ['`', '\n']) true true, lit '`']

def unsupportedEmphasis : List (Pattern Char) :=
  [{ pieces := [lit '*', lit '*', lit '*', .many (noneOf ['\n']) false true,
      lit '*', lit '*', lit '*'] },
    { pieces := [lit '*', .many (noneOf ['*', '\n']) false false, lit '*', lit '*',
      .many (noneOf ['\n']) false true, lit '*', lit '*', .many (noneOf ['*', '\n']) false false,
      lit '*'] },
    { pieces := [lit '*', lit '*', .many (noneOf ['*', '\n']) false false, lit '*',
      .many (noneOf ['\n']) false true, lit '*', .many (noneOf ['*', '\n']) false false,
      lit '*', lit '*'] }]

def bold : Pattern Char where
  pieces := [lit '*', lit '*', .many (noneOf ['*', '\n']) true false, lit '*', lit '*']

def italic : Pattern Char where
  behind := (· == '*')
  pieces := [lit '*', .many (noneOf ['*', '\n']) true false, lit '*']
  ahead := (· == '*')

section Passes

variable (uuid4 : ℕ → Uuid)

def storeReplacement (label replacement : List Char) (s : Stash) : List Char × Stash :=
  let token := placeholder label (uuid4 s.calls).hex
  (token, { calls := s.calls + 1, replacements := s.replacements.insert token replacement })

def replaceCodeBlock (parts : List (List Char)) : Stash → List Char × Stash :=
  storeReplacement uuid4 "CODE_BLOCK".toList
    ("<pre><code>".toList ++ htmlEscape (parts.getD 5 []) ++ "</code></pre>".toList)

def replaceMarkdownLink (parts : List (List Char)) : Stash → List Char × Stash :=
  storeReplacement uuid4 "MARKDOWN_LINK".toList (htmlEscape parts.flatten)

def replaceInlineCode (parts : List (List Char)) : Stash → List Char × Stash :=
  storeReplacement uuid4 "INLINE_CODE".toList
    ("<code>".toList ++ parts.getD 1 [] ++ "</code>".toList)

def replaceUnsupportedEmphasis (parts : List (List Char)) : Stash → List Char × Stash :=
  storeReplacement uuid4 "UNSUPPORTED".toList parts.flatten

/-- `<b>\1</b>`, or `<i>\1</i>`, where the group is a part of the match. -/
def tagged (tag : List Char) (group : ℕ) (parts : List (List Char)) (s : Stash) :
    List Char × Stash :=
  ("<".toList ++ tag ++ ">".toList ++ parts.getD group [] ++ "</".toList ++ tag ++ ">".toList, s)

/-- `re.sub` of a text, which may add to `replacements`. -/
def reSub (p : Pattern Char) (f : List (List Char) → Stash → List Char × Stash)
    (rendered : List Char × Stash) : List Char × Stash :=
  p.sub id f rendered.1 rendered.2

/-- The code, the links and the emphasis that is not supported give way to placeholders. -/
def fragmentsAside (text : List Char) : List Char × Stash :=
  let rendered := reSub codeBlock (replaceCodeBlock uuid4)
    (text, { calls := 0, replacements := ∅ })
  let rendered := reSub markdownLink (replaceMarkdownLink uuid4) rendered
  let rendered := reSub inlineCode (replaceInlineCode uuid4) (htmlEscape rendered.1, rendered.2)
  unsupportedEmphasis.foldl (fun rendered pattern =>
    reSub pattern (replaceUnsupportedEmphasis uuid4) rendered) rendered

/-- What the regular expressions make of a text. -/
def conversion (text : List Char) : List Char × Stash :=
  reSub italic (tagged "i".toList 1)
    (reSub bold (tagged "b".toList 2) (fragmentsAside uuid4 text))

/-- The placeholders are replaced, in the order of the dictionary. -/
def restore (rendered : List Char) (replacements : Dict (List Char) (List Char)) : List Char :=
  replacements.items.foldl (fun rendered (token, replacement) =>
    replaceAll token replacement rendered) rendered

def markdownToHtml (text : List Char) : List Char :=
  restore (conversion uuid4 text).1 (conversion uuid4 text).2.replacements

end Passes

end TelegramClient

end Portex
