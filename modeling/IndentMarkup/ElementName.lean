import IndentMarkup.Text.Basic

/-!
Element names. A bare word opens an element only when it is the name of an HTML element or has the
shape of a custom one.
-/

namespace IndentMarkup

namespace ElementName

def htmlNames : List Text :=
  ["a", "abbr", "address", "article", "aside", "audio", "b", "base", "blockquote", "body", "br",
   "button", "canvas", "caption", "cite", "code", "col", "colgroup", "dd", "del", "details",
   "dialog", "div", "dl", "dt", "em", "fieldset", "figcaption", "figure", "footer", "form", "h1",
   "h2", "h3", "h4", "h5", "h6", "head", "header", "hr", "html", "i", "iframe", "img", "input",
   "ins", "kbd", "label", "legend", "li", "link", "main", "mark", "menu", "meta", "nav",
   "noscript", "ol", "optgroup", "option", "p", "picture", "pre", "q", "s", "samp", "script",
   "section", "select", "small", "source", "span", "strong", "style", "sub", "summary", "sup",
   "table", "tbody", "td", "template", "textarea", "tfoot", "th", "thead", "time", "title", "tr",
   "u", "ul", "var", "video"].map String.toList

def isCustomChar (c : Char) : Bool := c.isLower || c.isDigit || c == '-' || c == '_'

/-- A custom element's name starts with a lower-case letter and has a hyphen. -/
def isCustom (word : Text) : Bool :=
  word.head?.any Char.isLower && word.contains '-' && word.all isCustomChar

end ElementName

def namesElement (word : Text) : Bool :=
  ElementName.htmlNames.contains word || ElementName.isCustom word

end IndentMarkup
