import CompanionBuild.Path.Basic
import CompanionBuild.Text.Word

/-! # What file names say

A companion is named `<base>.<kind>.<extension>`. Of two readings the one with the shorter base counts, so
`a.shim.axstyle.ts` is the shim style companion of `a`. A package is named by what follows `node_modules/`: a name of
word characters, hyphens and dots, or a scope and a name.
-/

namespace CompanionBuild

inductive CompanionKind where
  | factory
  | shimStyle
  | style
  | summary
deriving DecidableEq, Repr

inductive CompanionExtension where
  | js
  | dts
  | tsx
  | ts
deriving DecidableEq, Repr

def CompanionKind.text : CompanionKind → String
  | .factory => "axfactory"
  | .shimStyle => "shim.axstyle"
  | .style => "axstyle"
  | .summary => "axsummary"

/-- Every kind, those with the longer text before those that end it. -/
def CompanionKind.all : List CompanionKind := [.factory, .shimStyle, .style, .summary]

def CompanionKind.isStyle : CompanionKind → Bool
  | .shimStyle | .style => true
  | .factory | .summary => false

def CompanionExtension.text : CompanionExtension → String
  | .js => "js"
  | .dts => "d.ts"
  | .tsx => "tsx"
  | .ts => "ts"

/-- The companion is code that a compiler can take in. -/
def CompanionExtension.isScript : CompanionExtension → Bool
  | .ts | .tsx => true
  | .js | .dts => false

def CompanionExtension.all : List CompanionExtension := [.js, .dts, .tsx, .ts]

structure CompanionName where
  base : String
  kind : CompanionKind
  extension : CompanionExtension
deriving DecidableEq, Repr

namespace CompanionName

def render (name : CompanionName) : String :=
  name.base ++ "." ++ name.kind.text ++ "." ++ name.extension.text

/-- The base of a companion name of given kind and extension; a base is one line. -/
def base? (kind : CompanionKind) (extension : CompanionExtension) (file : String) : Option String :=
  (Text.dropTail? ("." ++ kind.text ++ "." ++ extension.text) file).filter fun base => !base.toList.contains '\n'

/-- The parts of a companion name. -/
def parse? (file : String) : Option CompanionName :=
  CompanionKind.all.findSome? fun kind =>
    CompanionExtension.all.findSome? fun extension =>
      (base? kind extension file).map fun base => ⟨base, kind, extension⟩

end CompanionName

namespace Path

def isCompanion (file : String) : Bool :=
  (CompanionName.parse? file).isSome

/-- A declaration file of TypeScript. -/
def isDeclaration (file : String) : Bool :=
  Text.endsWith file ".d.ts"

def isTypeScript (file : String) : Bool :=
  Text.endsWith file ".ts" || Text.endsWith file ".tsx"

/-- The name without the first of the endings that it has. -/
def dropFirstEnding? (endings : List String) (file : String) : Option String :=
  endings.findSome? (Text.dropTail? · file)

/-- The name without its source extension. -/
def stripExtension (file : String) : String :=
  (dropFirstEnding? [".d.ts", ".ts", ".js", ".jsx", ".tsx"] file).getD file

/-- The name with `.metadata.json` for the ending of a declaration file. -/
def metadataOfDeclaration (file : String) : String :=
  ((Text.dropTail? ".d.ts" file).map (· ++ ".metadata.json")).getD file

/-- The name with `.metadata.json` for the ending of a TypeScript file. -/
def metadataOfSource (file : String) : String :=
  ((dropFirstEnding? [".ts", ".tsx"] file).map (· ++ ".metadata.json")).getD file

/-- The style sheet that a preprocessed one compiles to. -/
def compiledStyle? (file : String) : Option String :=
  (dropFirstEnding? [".scss", ".sass", ".less", ".styl"] file).map (· ++ ".css")

namespace Chars

def isPackageChar (c : Char) : Bool :=
  Text.isWord c || c = '-' || c = '.'

def packageFolder : List Char := "node_modules/".toList

/-- The package name that a text starts with. -/
def packageHead? (text : List Char) : Option (List Char) :=
  match text.takeWhile isPackageChar with
  | c :: name => some (c :: name)
  | [] =>
    match text with
    | '@' :: rest =>
      match rest.takeWhile isPackageChar, rest.dropWhile isPackageChar with
      | c :: scope, '/' :: rest =>
        match rest.takeWhile isPackageChar with
        | d :: name => some ('@' :: c :: scope ++ '/' :: d :: name)
        | [] => none
      | _, _ => none
    | _ => none

/-- The package name after the first package folder that one follows. -/
def packageOf? : List Char → Option (List Char)
  | [] => none
  | c :: cs =>
    match (packageFolder.isPrefixOf? (c :: cs)).bind packageHead? with
    | some name => some name
    | none => packageOf? cs

/-- What follows the last package folder in a line. -/
def afterLastFolder? (line : List Char) : Option (List Char) :=
  match line with
  | [] => none
  | c :: cs =>
    match afterLastFolder? cs with
    | some rest => some rest
    | none => packageFolder.isPrefixOf? (c :: cs)

/-- The first line with a package folder loses everything up to the last folder in it. -/
def stripFolder : List (List Char) → List (List Char)
  | [] => []
  | line :: lines =>
    match afterLastFolder? line with
    | some rest => rest :: lines
    | none => line :: stripFolder lines

end Chars

/-- The package a file belongs to. -/
def packageOf? (file : String) : Option String :=
  (Chars.packageOf? file.toList).map String.ofList

/-- The name of a file inside the innermost package folder. -/
def stripPackageFolder (file : String) : String :=
  String.ofList (List.intercalate ['\n'] (Chars.stripFolder (Text.split '\n' file.toList)))

end Path

end CompanionBuild
