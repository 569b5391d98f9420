import StateTables.Format.Comment
import StateTables.Text.Blank
import StateTables.Text.Identifier

/-! # Documentation

A comment right above a declaration is documentation: paragraphs, headings, lists
and code. It is written in a canonical form.
-/

namespace StateTables.Format.DocComment

/-! ## Lines -/

def isIndented (line : String) : Bool :=
  line.startsWith " " || line.startsWith "\t"

def leadingSpace (line : String) : List Char :=
  line.toList.takeWhile fun character => character = ' ' || character = '\t'

def commonStart : List Char → List Char → List Char
  | first :: rest, other :: others =>
    if first = other then first :: commonStart rest others else []
  | _, _ => []

def trimEmpty (lines : List String) : List String :=
  ((lines.dropWhile String.isEmpty).reverse.dropWhile String.isEmpty).reverse

def unindent (lines : List String) : List String :=
  match trimEmpty lines with
  | [] => []
  | first :: rest =>
    let shared := (rest.filter (!·.isEmpty)).foldl
      (fun shared line => commonStart shared (leadingSpace line)) (leadingSpace first)
    trimEmpty <| (first :: rest).map fun line =>
      let characters := line.toList
      let kept := if shared.isPrefixOf characters then characters.drop shared.length
        else characters
      if kept.all Text.isBlank then "" else String.ofList kept

def marker? (line : String) : Option (String × String) :=
  let characters := Text.trimBlanks line.toList
  let digits := characters.takeWhile Char.isDigit
  let found := match characters with
    | [] => none
    | first :: rest =>
      if ['•', '*', '+', '-'].contains first then some ([], rest)
      else match digits, characters.drop digits.length with
        | _ :: _, '.' :: rest => some (digits, rest)
        | _ :: _, ')' :: rest => some (digits, rest)
        | _, _ => none
  match found with
  | some (number, rest) =>
    if isIndented (String.ofList rest) && !rest.all Text.isBlank then
      some (String.ofList number, String.ofList rest)
    else none
  | none => none

def isItem (line : String) : Bool :=
  (marker? line).isSome

def isHeading (line : String) : Bool :=
  (line.startsWith "# " || line.startsWith "#\t") && Text.trim line != "#"

def partsAllowed (separator : String) (allowed : String → Bool) (line : String) : Bool :=
  let parts := line.splitOn separator
  (List.range parts.length).all fun index =>
    index = 0 || allowed (separator.intercalate (parts.drop index))

/-- Is a line that stands alone between paragraphs a heading by its form? -/
def isPlainHeading (line : String) : Bool :=
  let line := Text.trim line
  let startsWell := (line.toList.head?.map Char.isUpper).getD false
  let endsWell := (line.toList.getLast?.map fun character =>
    Text.isWordRest character && character != '_').getD false
  let forbidden := ";:!?+*/=[]\x7b\x7d_^°&§~%#@<\">\\".toList
  startsWell && endsWell && !line.toList.any forbidden.contains &&
    partsAllowed "'" (fun rest => rest = "s" || rest.startsWith "s ") line &&
    partsAllowed "." (fun rest => !rest.isEmpty && !rest.startsWith " ") line

/-! ## Spans -/

inductive SpanKind where
  | code
  | list
  | heading
  | plainHeading
  | paragraph
deriving DecidableEq, Repr

/-- Adjacent lines, from one up to but without another. -/
structure Span where
  start : Nat
  stop : Nat
  kind : SpanKind
deriving DecidableEq, Repr

def lineAt (lines : Array String) (index : Nat) : String :=
  lines[index]?.getD ""

def skip (lines : Array String) (holds : String → Bool) : Nat → Nat → Nat
  | 0, index => index
  | fuel + 1, index =>
    if index < lines.size && holds (lineAt lines index) then skip lines holds fuel (index + 1)
    else index

/-- The end of indented lines. Lines before `forced` count as indented. Items of a
list need no indentation up to the first empty line. -/
def indentedEnd (lines : Array String) (forced : Nat) : Bool → Nat → Nat → Nat
  | _, 0, index => index
  | inItems, fuel + 1, index =>
    let line := lineAt lines index
    if index < lines.size && (line.isEmpty || index < forced || isIndented line ||
        (inItems && isItem line)) then
      indentedEnd lines forced (inItems && !line.isEmpty) fuel (index + 1)
    else index

/-- Go back over lines that hold, but not before a start. -/
def back (lines : Array String) (holds : String → Bool) (start : Nat) : Nat → Nat
  | 0 => 0
  | stop + 1 =>
    if start ≤ stop && holds (lineAt lines stop) then back lines holds start stop else stop + 1

def isPlainHeadingAt (lines : Array String) (index : Nat) : Bool :=
  index > 0 && (lineAt lines (index - 1)).isEmpty && index + 2 < lines.size &&
    (lineAt lines (index + 1)).isEmpty && !isIndented (lineAt lines (index + 2)) &&
    isPlainHeading (lineAt lines index)

/-- The spans of lines from a given one on. Lines before `forced` count as
indented: they were left over by a paragraph, as the start of a list or of code that
lacks indentation. -/
def spans (lines : Array String) : Nat → Nat → Nat → List Span
  | 0, _, _ => []
  | fuel + 1, index, forced =>
    let start := skip lines String.isEmpty lines.size index
    if start ≥ lines.size then []
    else if start < forced || isIndented (lineAt lines start) then
      let inItems := isItem (lineAt lines start) && start < forced
      let stop := back lines String.isEmpty start
        (indentedEnd lines forced inItems lines.size start)
      let stop := if stop < lines.size && (lineAt lines stop).startsWith "\x7d" then stop + 1
        else stop
      let kind := if isItem (lineAt lines start) then .list else .code
      ⟨start, stop, kind⟩ :: spans lines fuel stop forced
    else
      let stop := skip lines (fun line => !line.isEmpty && !isIndented line) lines.size start
      let next := lineAt lines stop
      let last := lineAt lines (stop - 1)
      let leaves := stop < lines.size && !next.isEmpty && !isItem next
      let (kept, forced) :=
        if leaves && isItem last then (back lines isItem start stop, stop)
        else if leaves && (last.endsWith "\x7b" || last.endsWith "\\") then (stop - 1, stop)
        else (stop, forced)
      if kept = start then spans lines fuel start forced
      else
        let kind := if kept - start = 1 && isHeading (lineAt lines start) then .heading
          else if kept - start = 1 && isPlainHeadingAt lines start then .plainHeading
          else .paragraph
        ⟨start, kept, kind⟩ :: spans lines fuel kept forced

/-! ## Blocks -/

structure Item where
  number : String
  paragraphs : List (List String)
deriving DecidableEq, Repr

inductive Block where
  | paragraph (lines : List String)
  | heading (text : String)
  | code (lines : List String)
  | list (items : List Item) (isApart isLoose : Bool)
deriving DecidableEq, Repr

structure Link where
  name : String
  address : String
deriving DecidableEq, Repr

def isScheme (text : String) : Bool :=
  ["file", "ftp", "gopher", "http", "https", "mailto", "nntp"].contains text

def link? (line : String) : Option Link :=
  match line.splitOn "]:" with
  | opening :: first :: rest =>
    let behind := "]:".intercalate (first :: rest)
    let address := Text.trim behind
    if opening.startsWith "[" && isIndented behind && behind.length > 1 &&
        (address.splitOn "://").length > 1 &&
        isScheme ((address.splitOn "://").headD "") then
      some ⟨String.ofList (opening.toList.drop 1), address⟩
    else none
  | _ => none

def links? (lines : List String) : Option (List Link) :=
  lines.mapM link?

structure Listing where
  items : List Item
  lines : List String
  links : List Link
  isLoose : Bool

namespace Listing

def endParagraph (listing : Listing) : Listing :=
  match listing.items, listing.lines.reverse with
  | _, [] => { listing with lines := [] }
  | [], _ => { listing with lines := [] }
  | item :: items, lines =>
    match links? lines with
    | some links => { listing with lines := [], links := listing.links ++ links }
    | none =>
      { listing with
        lines := []
        items := { item with paragraphs := item.paragraphs ++ [lines] } :: items }

def step (numbered : Bool) (listing : Listing) (line : String) : Listing :=
  let (listing, line) := match marker? line with
    | some (number, rest) =>
      if (number != "") = numbered then
        let listing := listing.endParagraph
        ({ listing with items := ⟨number, []⟩ :: listing.items }, rest)
      else (listing, line)
    | none => (listing, line)
  let line := Text.trim line
  if line.isEmpty then { listing.endParagraph with isLoose := true }
  else { listing with lines := line :: listing.lines }

end Listing

def block (lines : List String) (kind : SpanKind) (isApart : Bool) : Option Block × List Link :=
  match kind with
  | .code => (some (.code (unindent lines)), [])
  | .heading => (some (.heading (Text.trim (String.ofList ((lines.headD "").toList.drop 1)))), [])
  | .plainHeading => (some (.heading (Text.trim (lines.headD ""))), [])
  | .paragraph =>
    match links? lines with
    | some links => (none, links)
    | none => (some (.paragraph lines), [])
  | .list =>
    let numbered := ((marker? (lines.headD "")).map fun (number, _) => number != "").getD false
    let listing := (lines.foldl (Listing.step numbered) ⟨[], [], [], false⟩).endParagraph
    let items := listing.items.reverse
    let isLoose := listing.isLoose || items.any fun item => item.paragraphs.length != 1
    (some (.list items (isApart || isLoose) isLoose), listing.links)

def blocks (lines : Array String) (last : Nat) : List Span → List Block × List Link
  | [] => ([], [])
  | span :: rest =>
    let content := (lines.extract span.start span.stop).toList
    let (first, links) := block content span.kind (last < span.start)
    let (more, others) := blocks lines span.stop rest
    (first.toList ++ more, links ++ others)

/-! ## Text -/

/-- Replace doubled quotes by typographic ones. Longer runs of back quotes stay. -/
def curled (text : Array Char) : Nat → Nat → List Char
  | 0, _ => []
  | fuel + 1, index =>
    let back := Char.ofNat 0x60
    match text[index]?, text[index + 1]?, text[index + 2]? with
    | none, _, _ => []
    | some first, second, third =>
      if first = back && second = some back then
        if third = some back then
          let stop := runEnd text index (text.size - index) (index + 3)
          (text.extract index stop).toList ++ curled text fuel stop
        else '“' :: curled text fuel (index + 2)
      else if first = '\'' && second = some '\'' then '”' :: curled text fuel (index + 2)
      else first :: curled text fuel (index + 1)
where
  /-- The end of a run of back quotes, counted from where its text starts. -/
  runEnd (text : Array Char) (start : Nat) : Nat → Nat → Nat
    | 0, stop => stop
    | fuel + 1, stop =>
      if stop < text.size - start && text[start + stop]? = some (Char.ofNat 0x60) then
        runEnd text start fuel (stop + 1)
      else stop

def paragraphText (indentation : String) (lines : List String) : String :=
  let characters := ("\n".intercalate lines).toList.toArray
  let text := String.ofList (curled characters (characters.size + 1) 0)
  ("\n" ++ indentation).intercalate (text.splitOn "\n")

def itemText (item : Item) : String :=
  let mark := if item.number.isEmpty then "  - " else " " ++ item.number ++ ". "
  mark ++ "\n    ".intercalate (item.paragraphs.map fun lines => paragraphText "    " lines ++ "\n")

namespace Block

def text : Block → String
  | .paragraph lines => paragraphText "" lines ++ "\n"
  | .heading text => "# " ++ text ++ "\n"
  | .code lines => String.join (lines.map fun line =>
      if line.isEmpty then "\n" else "\t" ++ line ++ "\n")
  | .list items _ isLoose =>
    (if isLoose then "\n" else "").intercalate (items.map itemText)

def isApart : Block → Bool
  | .list _ isApart _ => isApart
  | _ => true

def linkedTexts : Block → List String
  | .paragraph lines => ["\n".intercalate lines]
  | .list items _ _ => items.flatMap fun item => item.paragraphs.map ("\n".intercalate ·)
  | _ => []

end Block

def bracketed (opened : Option (List Char)) : List Char → List String
  | [] => []
  | '[' :: rest => bracketed (some []) rest
  | ']' :: rest =>
    let found := (opened.map fun name => String.ofList name.reverse).toList
    found ++ bracketed none rest
  | character :: rest =>
    let plain := if character = '\n' || character = '\t' then ' ' else character
    bracketed (opened.map (plain :: ·)) rest

def linkText (blocks : List Block) (links : List Link) : String :=
  let names := blocks.flatMap fun block => block.linkedTexts.flatMap fun text =>
    bracketed none text.toList
  -- Of several links with one name the first is the one in use.
  let isUsed (index : Nat) (link : Link) := names.contains link.name &&
    !((links.take index).any fun other => other.name == link.name)
  let numbered := links.zipIdx
  let group (links : List (Link × Nat)) := if links.isEmpty then "" else
    "\n" ++ String.join (links.map fun (link, _) =>
      "[" ++ link.name ++ "]: " ++ link.address ++ "\n")
  group (numbered.filter fun (link, index) => isUsed index link) ++
    group (numbered.filter fun (link, index) => !isUsed index link)

/-- The canonical form of a documentation text. It is empty if nothing is said. -/
def canonicalText (text : String) : String :=
  let lines := (unindent (text.splitOn "\n")).toArray
  let (blocks, links) := blocks lines 0 (spans lines (2 * lines.size + 2) 0 0)
  match blocks with
  | [] => ""
  | first :: rest =>
    first.text ++ String.join (rest.map fun block =>
      (if block.isApart then "\n" else "") ++ block.text) ++ linkText (first :: rest) links

/-! ## Comments -/

/-- Is a comment an order to a tool and no documentation? Its slashes are left out. -/
def isDirective (text : String) : Bool :=
  let isPlain (character : Char) := character.isDigit || ('a' ≤ character && character ≤ 'z')
  let subject := text.toList.takeWhile (· != ':')
  let behind := text.toList.drop (subject.length + 1)
  text.startsWith "line " || text.startsWith "extern " || text.startsWith "export " ||
    (!subject.isEmpty && subject.all isPlain && (behind.head?.map isPlain).getD false)

def isStarred (text : String) : Bool :=
  ((text.splitOn "\n").drop 1).all fun line =>
    let rest := line.toList.dropWhile fun character => character = ' ' || character = '\t'
    rest.head? = some '*'

def commentLine (line : String) : String :=
  if line.isEmpty then "//"
  else if line.startsWith "\t" then "//" ++ line
  else "// " ++ line

def canonicalLines (place : Place) (comments : List Comment) : List Comment :=
  let texts := comments.map fun comment => String.ofList (comment.text.toList.drop 2)
  let said := texts.filter (!isDirective ·)
  let directives := comments.filter fun comment =>
    isDirective (String.ofList (comment.text.toList.drop 2))
  if said.isEmpty then comments
  else
    let unmarked (text : String) := if text.startsWith " " then String.ofList (text.toList.drop 1)
      else text
    let text := canonicalText (String.join (said.map fun text => unmarked text ++ "\n"))
    if text.isEmpty then []
    else
      let lines := (text.splitOn "\n").dropLast.map commentLine
      let orders := if directives.isEmpty then [] else
        "//" :: directives.map Comment.text
      (lines ++ orders).map (⟨place, ·⟩)

def canonical (comments : List Comment) : List Comment :=
  match comments with
  | [] => []
  | first :: rest =>
    if rest.isEmpty && first.text.startsWith "/*" then
      if !first.text.contains '\n' || isStarred first.text then comments
      else
        let inner := (first.text.toList.drop 2).dropLast.dropLast
        let text := canonicalText (String.ofList inner)
        if text.isEmpty then [] else [⟨first.place, "/*\n" ++ text ++ "*/"⟩]
    else if comments.all Comment.isLine then canonicalLines first.place comments
    else comments

end StateTables.Format.DocComment
