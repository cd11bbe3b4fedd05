import RelaxDoc.File.Tree
import RelaxDoc.Grammar.Build
import RelaxDoc.Location
import RelaxDoc.Run
import RelaxDoc.Structure.Check
import RelaxDoc.Xml.Reader

/-! Loading grammars from locations and from streams of bytes. -/
namespace RelaxDoc

/-- How grammars are loaded. -/
structure Loader where
  limits : Limits := .standard
  validate : Bool := false
  deriving DecidableEq, Repr

namespace Loader

/-- The document that a text writes. -/
def document (text : String) : Except Error Xml.Document :=
  match Xml.Document.ofText text with
  | .ok document => .ok document
  | .error fault => .error (.malformed (.fault fault))

/-- Refuses a document whose structure is broken. -/
def checkStructure (document : Xml.Document) : Except Error Unit :=
  match RelaxDoc.checkStructure document with
  | .ok _ => .ok ()
  | .error v => .error (.violation v)

/-- The grammar that a text writes. -/
def parse (loader : Loader) (text : String) : Run Grammar := do
  let document ← Run.ofExcept (Loader.document text)
  Run.ofExcept (Grammar.checkRoot document)
  if loader.validate then
    Run.say .debug "Running structural pre-check"
    Run.ofExcept (checkStructure document)
  Run.sayAll (Grammar.buildMessages loader.limits document)
  Run.ofExcept (Grammar.ofDocument loader.limits document)

/-- The text that bytes from `source` encode. -/
def decode (source : Option String) (bytes : List UInt8) : Except Error String :=
  match Text.decode bytes with
  | .ok text => .ok text
  | .error error => .error (.malformed (.notUtf8 source error))

/-- The text at a location, read from the files of a tree. -/
def text (loader : Loader) (tree : FileTree) : Location → Except Error String
  | .path path => do
    if !tree.has path then throw (.inputNotFound path)
    match tree.read path with
    | .error e => throw (.io e)
    | .ok bytes =>
      loader.limits.checkSize bytes.length
      decode (some path) bytes
  | .url url => throw (.resource s!"only local files can be read, got '{url.text}'")
  | .text content => do
    loader.limits.checkSize content.utf8ByteSize
    return content

/-- The grammar at a location, read from the files of a tree. -/
def load (loader : Loader) (tree : FileTree) (location : Location) : Run Grammar := do
  Run.say .info s!"Loading grammar from {location.display}"
  let text ← Run.ofExcept (loader.text tree location)
  loader.parse text

/-- The number of bytes taken from a stream: one more than allowed, counted in 64 bits. -/
def streamBound (loader : Loader) : Nat := (loader.limits.maxSize + 1).toUInt64.toNat

/-- The grammar in a stream of bytes, of which only so many are taken as show whether
there are too many. -/
def loadBytes (loader : Loader) (bytes : List UInt8) : Run Grammar := do
  let taken := bytes.take loader.streamBound
  Run.ofExcept (loader.limits.checkSize taken.length)
  let text ← Run.ofExcept (decode none taken)
  loader.parse text

end Loader

end RelaxDoc
