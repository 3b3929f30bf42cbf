import Feedpulse.OpmlJobs
import Feedpulse.TextPattern

/-!
# The OPML parser

`extractOpmlItems` looks for the `outline` tags of a document, keeps the titles of the open
outlines on a stack and makes an item of every outline with an `xmlUrl`.
-/

namespace Feedpulse

/-- `ExtractOpmlItemsOptions`. -/
structure ExtractOpmlItemsOptions where
  /-- limit on bytes -/
  maxBytes : Option Nat
  /-- limit on outline tags -/
  maxOutlineTags : Option Nat

namespace OpmlParser

/-- `DEFAULT_MAX_OPML_BYTES`. -/
def defaultMaxOpmlBytes : Nat := 2 * 1024 * 1024

/-- `DEFAULT_MAX_OUTLINE_TAGS`. -/
def defaultMaxOutlineTags : Nat := 20000

/-! ## Attributes -/

/-- `decodeXmlEntities`. -/
def decodeXmlEntities (input : List Char) : List Char :=
  let input := replaceAll "&quot;".toList ['"'] 0 input
  let input := replaceAll "&apos;".toList ['\''] 0 input
  let input := replaceAll "&lt;".toList ['<'] 0 input
  let input := replaceAll "&gt;".toList ['>'] 0 input
  replaceAll "&amp;".toList ['&'] 0 input

/-- A word of a pattern with the flag `i`. -/
def word (text : String) : List (Piece Char) := text.toList.map fun c => .one fun d => d.toLower = c

/-- `\w`, for `\b`. -/
def isWordChar (c : Char) : Bool := c.isAlphanum || c = '_'

/-- `<\/?\s*outline\b`, with the flag `i`. -/
def outlineStart : List (Piece Char) :=
  [.one (· = '<'), .opt (· = '/'), .many Text.isWhitespace] ++ word "outline" ++
    [.notAhead isWordChar]

/-- `/<\/?\s*outline\b[^>]*>/i`. -/
def outlineTag : List (Piece Char) := outlineStart ++ [.many (· ≠ '>'), .one (· = '>')]

/-- `/^<\/\s*outline/i`. -/
def closingTag : List (Piece Char) :=
  [.one (· = '<'), .one (· = '/'), .many Text.isWhitespace] ++ word "outline"

/-- `tag.replace(/^<\/?\s*outline\b/i, '')`. -/
def dropOutlineStart (tag : List Char) : List Char :=
  match Piece.matchHere outlineStart tag with
  | some m => m.2
  | none => tag

/-- `tag.replace(/\/?\s*>$/, '')`, read from the end. -/
def dropTagEnd (tag : List Char) : List Char :=
  match tag.reverse with
  | '>' :: before =>
    match before.dropWhile Text.isWhitespace with
    | '/' :: before => before.reverse
    | before => before.reverse
  | _ => tag

/-- `[a-zA-Z_:]`. -/
def isNameStart (c : Char) : Bool := c.isAlpha || c = '_' || c = ':'

/-- `[-a-zA-Z0-9_:.]`. -/
def isNameChar (c : Char) : Bool := c.isAlphanum || c = '-' || c = '_' || c = ':' || c = '.'

/-- `([a-zA-Z_:][-a-zA-Z0-9_:.]*)\s*=\s*"([^"]*)"`, with this quote. The first two pieces are the
name, the seventh is the value. -/
def quotedAttribute (quote : Char) : List (Piece Char) :=
  [.one isNameStart, .many isNameChar, .many Text.isWhitespace, .one (· = '='),
    .many Text.isWhitespace, .one (· = quote), .many (· ≠ quote), .one (· = quote)]

/-- `attrRegex` at the beginning of a text. At most one of the quotes matches. -/
def attributeHere (text : List Char) : Option (Piece.Match Char) :=
  (Piece.matchHere (quotedAttribute '"') text).or (Piece.matchHere (quotedAttribute '\'') text)

/-- Name and value of a match of `attrRegex`. -/
def attributeOf (m : Piece.Match Char) : List Char × List Char :=
  ((m.1.take 2).flatten, decodeXmlEntities (Text.trimChars ((m.1.drop 6).take 1).flatten))

/-- `parseAttributes`: names and values in the order in which they are set. -/
def parseAttributes (tag : List Char) : List (List Char × List Char) :=
  (Piece.allMatches attributeHere 0 (dropTagEnd (dropOutlineStart tag))).map attributeOf

/-- `attributes[key]`: the value that was set last. -/
def attribute? (attributes : List (List Char × List Char)) (key : String) : Option (List Char) :=
  (attributes.reverse.find? fun a => a.1 = key.toList).map Prod.snd

/-! ## Outlines -/

/-- The local state of the loop. -/
structure Outlines where
  /-- titles of the open outlines -/
  pathStack : List (List Char)
  /-- the items so far -/
  parsed : List ParsedOpmlItem
  deriving DecidableEq

/-- `text || null`. -/
def orNull (text : List Char) : Option (List Char) := if text = [] then none else some text

/-- The title of an outline, from its attributes. -/
def titleOf (attributes : List (List Char × List Char)) : Option (List Char) :=
  orNull <| Text.trimChars <|
    ((attribute? attributes "title").or (attribute? attributes "text")).getD []

/-- The URL of an outline, from its attributes. -/
def xmlUrlOf (attributes : List (List Char × List Char)) : List Char :=
  Text.trimChars <| ((attribute? attributes "xmlUrl").or (attribute? attributes "xmlurl")).getD []

/-- `outlinePath`, before it is made null. -/
def outlinePathOf (pathStack : List (List Char)) (title : Option (List Char)) : List Char :=
  Text.trimChars (" / ".toList.intercalate (pathStack ++ title.toList))

/-- The item of an outline. -/
def itemOf (pathStack : List (List Char)) (title : Option (List Char)) (xmlUrl : List Char) :
    ParsedOpmlItem where
  title := title.map String.ofList
  outlinePath := (orNull (outlinePathOf pathStack title)).map String.ofList
  sourceXmlUrl := String.ofList xmlUrl

/-- One turn of the loop. -/
def readTag (s : Outlines) (tag : List Char) : Except String Outlines :=
  let trimmedTag := Text.trimChars tag
  let isClosing := (Piece.matchHere closingTag trimmedTag).isSome
  let isSelfClosing := ['/', '>'].isSuffixOf trimmedTag
  if isClosing then
    if s.pathStack = [] then .error "opml_malformed_outline"
    else .ok { s with pathStack := s.pathStack.dropLast }
  else
    let attributes := parseAttributes trimmedTag
    let title := titleOf attributes
    let xmlUrl := xmlUrlOf attributes
    if xmlUrl ≠ [] then
      .ok { s with parsed := s.parsed ++ [itemOf s.pathStack title xmlUrl] }
    else
      match title with
      | some title =>
        if isSelfClosing then .ok s else .ok { s with pathStack := s.pathStack ++ [title] }
      | none => .ok s

/-- The loop. -/
def readTags : Outlines → List (List Char) → Except String Outlines
  | s, [] => .ok s
  | s, tag :: tags => do
    let s' ← readTag s tag
    readTags s' tags

/-- `xml.match(/<\/?\s*outline\b[^>]*>/gi)`. -/
def outlineTags (xml : List Char) : List (List Char) :=
  (Piece.allMatches (Piece.matchHere outlineTag) 0 xml).map fun m => m.1.flatten

/-- `extractOpmlItems`. Of lower case only ASCII letters matter to what is looked for. -/
def extractOpmlItems (opmlXml : String) (options : ExtractOpmlItemsOptions) :
    Except String (List ParsedOpmlItem) :=
  let maxBytes := options.maxBytes.getD defaultMaxOpmlBytes
  let maxOutlineTags := options.maxOutlineTags.getD defaultMaxOutlineTags
  let xml := Text.trimChars opmlXml.toList
  let lower := xml.map Char.toLower
  if maxBytes < opmlXml.utf8ByteSize then .error "opml_too_large"
  else if xml = [] ∨ ¬Text.includesChars "<opml".toList lower then .error "opml_invalid_root"
  else if Text.includesChars "<!doctype".toList lower ∨
      Text.includesChars "<!entity".toList lower then
    .error "opml_doctype_not_allowed"
  else
    let tags := outlineTags xml
    if tags = [] then .ok []
    else if maxOutlineTags < tags.length then .error "opml_outline_limit_exceeded"
    else do
      let s ← readTags ⟨[], []⟩ tags
      if s.pathStack ≠ [] then .error "opml_malformed_outline" else .ok s.parsed

end OpmlParser

end Feedpulse
