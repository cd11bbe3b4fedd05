import RelaxDoc.Url.Host

/-! Absolute URLs: reading them from arguments and writing them in their normal form. -/
namespace RelaxDoc

/-- The part of a URL that says where: user information with its mark, a host, and the
number behind its colon if that is not the usual one. -/
structure UrlAuthority where
  userinfo : List Char
  host : List Char
  portNumber : Option Nat
  deriving DecidableEq, Repr

/-- An absolute URL in its normal form. The path is a text of its own, or segments that are
behind a slash each. -/
structure Url where
  scheme : String
  authority : Option UrlAuthority
  path : List Char
  query : Option (List Char)
  fragment : Option (List Char)
  deriving DecidableEq, Repr

namespace Url

/-- The text of an authority. -/
def authorityText (a : UrlAuthority) : List Char :=
  ['/', '/'] ++ a.userinfo ++ a.host ++
    match a.portNumber with
    | some n => ':' :: Nat.toDigits 10 n
    | none => []

/-- The text of segments, each behind a slash. -/
def segmentsText (segments : List (List Char)) : List Char :=
  segments.flatMap fun segment => '/' :: segment

/-- The text of a path. Without an authority it may not begin with two slashes. -/
def pathText (hasAuthority : Bool) (path : List Char) : List Char :=
  if !hasAuthority && ['/', '/'].isPrefixOf path then ['/', '.'] ++ path else path

/-- The text of a URL. -/
def text (url : Url) : String :=
  String.ofList (url.scheme.toList ++ ':' ::
    (url.authority.map authorityText).getD [] ++
    pathText url.authority.isSome url.path ++
    (url.query.map ('?' :: ·)).getD [] ++ (url.fragment.map ('#' :: ·)).getD [])

/-- The number that a well-known scheme has where none is written. -/
def usualPortNumber? (scheme : String) : Option Nat :=
  if scheme = "http" || scheme = "ws" then some 80
  else if scheme = "https" || scheme = "wss" then some 443
  else if scheme = "ftp" then some 21
  else none

/-- A well-known scheme. -/
def isSpecial (scheme : String) : Bool := scheme == "file" || (usualPortNumber? scheme).isSome

/-- A tab or a line break, which mostly does not count. -/
def isBreak (c : Char) : Bool := c == '\t' || c == '\n' || c == '\r'

/-- A text without tabs and line breaks. -/
def withoutBreaks (text : List Char) : List Char := text.filter fun c => !isBreak c

/-- A text with a tab for the breaks behind each colon, and without other breaks. -/
def colonBreaks : (last : Char) → List Char → List Char
  | _, [] => []
  | last, c :: rest =>
    if !isBreak c then c :: colonBreaks c rest
    else if last == ':' then '\t' :: colonBreaks '\t' rest
    else colonBreaks last rest

/-- An argument without control characters and spaces at its ends. -/
def withoutEnds (argument : List Char) : List Char :=
  let outer := fun c : Char => c.toNat ≤ 0x20
  ((argument.dropWhile outer).reverse.dropWhile outer).reverse

/-- A character of a scheme. -/
def isSchemeChar (c : Char) : Bool := c.isAlphanum || c == '+' || c == '-' || c == '.'

/-- The scheme of a URL in lower case, and what is behind the colon. -/
def scheme? (input : List Char) : Option (String × List Char) :=
  let name := withoutBreaks (input.takeWhile (· != ':'))
  match name.head?.any Char.isAlpha && name.all isSchemeChar, input.dropWhile (· != ':') with
  | true, _ :: rest => some (String.ofList (name.map Char.toLower), rest)
  | _, _ => none

/-- The text before the first mark, and the text behind it if there is one. -/
def cutBefore (mark : Char) (text : List Char) : List Char × Option (List Char) :=
  match text.dropWhile (· != mark) with
  | [] => (text, none)
  | _ :: behind => (text.takeWhile (· != mark), some behind)

/-- A slash, or in well-known schemes a backslash. -/
def isSlash (special : Bool) (c : Char) : Bool := c == '/' || (special && c == '\\')

/-- The text between slashes. -/
def pieces (special : Bool) (text : List Char) : List (List Char) :=
  Text.split '/' (text.map fun c => if isSlash special c then '/' else c)

/-- A text with escaped dots written out, to see whether it is made of dots alone. -/
def plainDots : List Char → List Char
  | '%' :: '2' :: 'e' :: rest => '.' :: plainDots rest
  | '%' :: '2' :: 'E' :: rest => '.' :: plainDots rest
  | c :: rest => c :: plainDots rest
  | [] => []

/-- A drive: a letter followed by a colon or a bar. -/
def isDrive (segment : List Char) : Bool :=
  match segment with
  | [letter, mark] => letter.isAlpha && (mark == ':' || mark == '|')
  | _ => false

/-- A segment that is a drive, or begins with one in front of a backslash. -/
def beginsWithDrive (segment : List Char) : Bool :=
  isDrive (segment.take 2) && (segment.drop 2).head?.all (· == '\\')

/-- The segments without the last, unless that one begins with a drive. -/
def shortened (segments : List (List Char)) : List (List Char) :=
  if segments.getLast?.any beginsWithDrive then segments else segments.dropLast

/-- A drive in front of a break, and the other characters of its segment, if there are any. -/
def brokenDrive? (piece : List Char) : Option (List Char × List Char) :=
  match piece with
  | letter :: ':' :: '\t' :: c :: rest =>
    if letter.isAlpha then some ([letter, ':'], withoutBreaks (c :: rest)) else none
  | _ => none

/-- Resolves dots in segments behind those in `done`. A break cuts a drive that comes first
off the rest of its segment, which is not looked at for dots. -/
def resolved : (done : List (List Char)) → List (List Char) → List (List Char)
  | done, [] => done
  | done, piece :: rest =>
    match if done.isEmpty then brokenDrive? piece else none with
    | some (drive, behind) => resolved [drive, percentEncode inPath behind] rest
    | none =>
      let segment := withoutBreaks piece
      let last := if rest.isEmpty then [[]] else []
      if plainDots segment = ['.', '.'] then resolved (shortened done ++ last) rest
      else if plainDots segment = ['.'] then resolved (done ++ last) rest
      else resolved (done ++ [percentEncode inPath segment]) rest

/-- Segments without empty ones at the beginning, unless all are empty. -/
def withoutLeading (segments : List (List Char)) : List (List Char) :=
  match segments.dropWhile List.isEmpty with
  | [] => [[]]
  | segments => segments

/-- User information with its mark, if there is any. -/
def userinfoText (text : List Char) : List Char :=
  let (user, password) := cutBefore ':' text
  let password := password.getD []
  percentEncode inUserinfo user ++
    (if password = [] then [] else ':' :: percentEncode inUserinfo password) ++
    (if user = [] && password = [] then [] else ['@'])

/-- The text before and behind the last at sign. -/
def cutUserinfo (text : List Char) : Option (List Char) × List Char :=
  match cutBefore '@' text.reverse with
  | (host, some user) => (some user.reverse, host.reverse)
  | (host, none) => (none, host.reverse)

/-- The text of a host, and the text behind the colon that ends it. -/
def cutNumber (bracket : Bool) : List Char → List Char × Option (List Char)
  | [] => ([], none)
  | c :: rest =>
    if c == ':' && !bracket then ([], some rest)
    else
      let bracket := if c == '[' then true else if c == ']' then false else bracket
      let (host, digits) := cutNumber bracket rest
      (c :: host, digits)

/-- The number that digits write, if it is in range; none if it is the usual one. -/
def portNumber? (scheme : String) (digits : List Char) : Option (Option Nat) :=
  if !digits.all Char.isDigit || Text.numberIn 10 digits > 65535 then none
  else if digits = [] || some (Text.numberIn 10 digits) = usualPortNumber? scheme then some none
  else some (some (Text.numberIn 10 digits))

/-- The authority that a text writes, and what is behind its number, from a backslash on; `more`
says that something follows the text. -/
def authority? (scheme : String) (more : Bool) (text : List Char) :
    Option (UrlAuthority × List Char) := do
  let (user, address) := cutUserinfo text
  let userinfo := (user.map userinfoText).getD []
  let (name, number) := cutNumber false address
  let host ← if isSpecial scheme then namedHost? name else opaqueHost? name
  let portNumber ← portNumber? scheme ((number.getD []).takeWhile (· != '\\'))
  if host = [] && (number.isSome || userinfo ≠ [] || (user = some [] && more)) then none
  else return (⟨userinfo, host, portNumber⟩, (number.getD []).dropWhile (· != '\\'))

/-- The host of a file URL and the text of its path, where two slashes are in front of them;
the last part says that the path begins without a slash of its own. -/
def fileHost? (text : List Char) : Option (List Char × List Char × Bool) :=
  let name := withoutBreaks (text.takeWhile fun c => !isSlash true c)
  let path := (text.dropWhile fun c => !isSlash true c).drop 1
  if isDrive name then some ([], text, true)
  else if name = [] then some ([], path, false)
  else (namedHost? name).map fun host =>
    if host = "localhost".toList then ([], path, false) else (host, path, true)

/-- The authority and the path of a file URL. A drive that comes first in a path without a
slash of its own gets a colon, and such a path has no host. -/
def fileBody? (body : List Char) : Option (UrlAuthority × List Char) := do
  let (host, path, bare) ← match body with
    | a :: b :: rest =>
      if isSlash true a && isSlash true b then fileHost? rest
      else if isSlash true a then pure ([], b :: rest, false)
      else pure ([], body, true)
    | [a] => if isSlash true a then pure ([], [], false) else pure ([], body, true)
    | [] => pure ([], [], true)
  let (host, segments) := match pieces true path with
    | first :: rest =>
      if bare && isDrive (withoutBreaks first) then ([], (first.take 1 ++ [':']) :: rest)
      else (host, first :: rest)
    | [] => (host, [])
  return (⟨[], host, none⟩, segmentsText (withoutLeading (resolved [] segments)))

/-- The authority and the path of a URL with a well-known scheme other than `file`. -/
def specialBody? (scheme : String) (more : Bool) (body : List Char) :
    Option (UrlAuthority × List Char) := do
  let rest := body.dropWhile (isSlash true)
  let path := rest.dropWhile fun c => !isSlash true c
  let (authority, _) ←
    authority? scheme (more || path ≠ []) (rest.takeWhile fun c => !isSlash true c)
  return (authority, segmentsText (resolved [] (pieces true (path.drop 1))))

/-- The authority, if there is one, and the path of a URL with another scheme. -/
def otherBody? (scheme : String) (more : Bool) (body : List Char) :
    Option (Option UrlAuthority × List Char) :=
  match body with
  | '/' :: '/' :: rest => do
    let path := rest.dropWhile (· != '/')
    let (authority, behind) ← authority? scheme (more || path ≠ []) (rest.takeWhile (· != '/'))
    let path := if behind = [] then path else '/' :: behind ++ path
    return (some authority,
      if path = [] then [] else segmentsText (resolved [] (pieces false (path.drop 1))))
  | '/' :: rest => some (none, segmentsText (resolved [] (pieces false rest)))
  | _ => some (none, percentEncode isControl body)

/-- The URL that an argument writes. -/
def ofText? (argument : String) : Option Url := do
  let (scheme, rest) ← scheme? (withoutEnds argument.toList)
  let (rest, fragment) := cutBefore '#' rest
  let (body, query) := cutBefore '?' rest
  let more := fragment.isSome || query.isSome
  let (authority, path) ←
    if scheme = "file" then (fileBody? (colonBreaks '/' body)).map fun (a, p) => (some a, p)
    else if isSpecial scheme then
      (specialBody? scheme more (withoutBreaks body)).map fun (a, p) => (some a, p)
    else otherBody? scheme more (withoutBreaks body)
  return ⟨scheme, authority, path,
    query.map fun text => percentEncode (inQuery (isSpecial scheme)) (withoutBreaks text),
    fragment.map fun text => percentEncode inFragment (withoutBreaks text)⟩

end Url

end RelaxDoc
