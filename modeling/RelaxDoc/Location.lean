import RelaxDoc.Error
import RelaxDoc.Url.Basic

/-! Where grammars come from: files, URLs, and texts that are at hand. -/
namespace RelaxDoc

/-- Where a grammar comes from. -/
inductive Location where
  | path (path : String)
  | url (url : Url)
  | text (content : String)
  deriving DecidableEq, Repr

namespace Location

/-- How a location is shown. -/
def display : Location → String
  | .path p => p
  | .url u => u.text
  | .text _ => "<string>"

/-- Whether a location is a URL. -/
def isRemote : Location → Bool
  | .url _ => true
  | _ => false

/-- Whether a location is a file. -/
def isFile : Location → Bool
  | .path _ => true
  | _ => false

/-- The bytes of a path, with a slash behind a drive at its end. -/
def withDriveSlash (bytes : List UInt8) : List UInt8 :=
  match bytes.reverse with
  | mark :: letter :: _ :: _ =>
    if (mark = 58 || mark = 124) && (Char.ofNat letter.toNat).isAlpha then bytes ++ [47] else bytes
  | _ => bytes

/-- The path that a file URL stands for, if it is a file of this host. -/
def filePath? (url : Url) : Option String :=
  if (url.authority.map UrlAuthority.host).getD [] = [] then
    some (Text.decodeLossy (withDriveSlash (Url.percentDecode url.path)))
  else none

/-- The location that an argument names. What is a URL with a scheme of more than one letter
is taken as one; a file URL is taken as the path of the file. -/
def ofArgument (argument : String) : Except Error Location :=
  match Url.ofText? argument with
  | none => .ok (.path argument)
  | some found =>
    if found.scheme.length ≤ 1 then .ok (.path argument)
    else if found.scheme = "file" then
      match filePath? found with
      | some file => .ok (.path file)
      | none => .error (.resource s!"Invalid file URL: {found.text}")
    else .ok (.url found)

end Location

end RelaxDoc
