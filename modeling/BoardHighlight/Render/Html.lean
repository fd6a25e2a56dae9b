import BoardHighlight.Document
import BoardHighlight.Text.WhiteSpace

/-!
# HTML

A document is one `pre` element. Every token with a style tag is a span whose classes are the words
of its tag; all other text stands between the spans. Text is escaped so that it holds no markup.
-/

namespace BoardHighlight
set_option autoImplicit false

namespace Html

def escapeChar (c : Char) : List Char :=
  if c == '&' then "&amp;".toList
  else if c == '<' then "&lt;".toList
  else if c == '>' then "&gt;".toList
  else if c == '"' then "&quot;".toList
  else if c == '\'' then "&#39;".toList
  else [c]

/-- Text for use between tags and within attribute values. -/
def escape (text : List Char) : List Char := text.flatMap escapeChar

/-- The classes of a style tag: one for each of its words. -/
def classes (tag : List Char) : List Char :=
  (((words tag).map ("cm-".toList ++ ·)).intersperse [' ']).flatten

def openTag : List Char := "<pre class=\"cm-s-bogl\">".toList

def closeTag : List Char := "</pre>\n".toList

def span (tag : String) (text : List Char) : List Char :=
  "<span class=\"".toList ++ classes tag.toList ++ "\">".toList ++ escape text ++
    "</span>".toList

def token (token : Token) : List Char :=
  match token.kind.style? with
  | some tag => span tag token.lexeme
  | none => escape token.lexeme

def line (tokens : List Token) : List Char := tokens.flatMap token

end Html

namespace Document

def toHtml (doc : Document) : List Char :=
  Html.openTag ++ Lines.join (doc.lineTokens.map Html.line) ++ Html.closeTag

end Document

end BoardHighlight
