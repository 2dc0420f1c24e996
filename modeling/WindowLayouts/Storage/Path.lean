import WindowLayouts.Storage.Name

/- Paths. A path is a list of names below a root or below the working directory. Reading a path
   drops empty names and single dots; double dots stay, because what they mean depends on the files.
   Two slashes in front are a root of their own, three or more are one. -/
namespace WindowLayouts

/-- What the names of a path start from. -/
inductive Root where
  | workingDirectory
  | slash
  | doubleSlash
deriving Repr, DecidableEq

structure Path where
  root : Root
  names : List Text
deriving Repr, DecidableEq

namespace Path

def rootOf (t : Text) : Root :=
  match t.takeWhile (· = CodePoint.ofChar '/') with
  | [] => .workingDirectory
  | [_, _] => .doubleSlash
  | _ => .slash

def ofText (t : Text) : Path :=
  ⟨rootOf t, (t.splitOn '/').filter fun name => !(name.isEmpty || name = text ".")⟩

def rootText : Root → Text
  | .workingDirectory => []
  | .slash => text "/"
  | .doubleSlash => text "//"

/-- Write a path; the working directory itself is a single dot. -/
def toText (p : Path) : Text :=
  match p with
  | ⟨.workingDirectory, []⟩ => text "."
  | ⟨root, names⟩ => rootText root ++ (text "/").intercalate names

/-- The path without its last name; a path without names is its own parent. -/
def parent (p : Path) : Path := ⟨p.root, p.names.dropLast⟩

/-- The last name of a path, empty where there is none. -/
def name (p : Path) : Text := p.names.getLastD []

def child (p : Path) (name : Text) : Path := ⟨p.root, p.names ++ [name]⟩

/-- Names with each double dot taken away together with the name before it. A double dot with no
    name before it stands at the root, which it leads back to. -/
def withoutDoubleDots (names : List Text) : List Text :=
  (names.foldl (fun before name => if name = text ".." then before.tail else name :: before)
    []).reverse

/-- A path as one from the root, without double dots, where the working directory is at a path. -/
def absolute (p workingDirectory : Path) : Path :=
  match p.root with
  | .workingDirectory =>
    ⟨workingDirectory.root, withoutDoubleDots (workingDirectory.names ++ p.names)⟩
  | root => ⟨root, withoutDoubleDots p.names⟩

/-- The directory that a tilde stands for: the home directory's text without its last slashes, and
    the root if nothing is left. -/
def ofHome (home : Text) : Path :=
  let bare := (home.reverse.dropWhile (· = CodePoint.ofChar '/')).reverse
  if bare.isEmpty then ⟨.slash, []⟩ else ofText bare

/-- Why a tilde in front of a path cannot be replaced. -/
inductive HomeFault where
  /-- Nobody knows the home directory that is meant. -/
  | unknown
  /-- The name after the tilde cannot be looked up. -/
  | name (fault : NameFault)
deriving Repr, DecidableEq

def HomeFault.message : HomeFault → Text
  | .unknown => text "Could not determine home directory."
  | .name fault => fault.message

/-- The accounts that a system has from the start, with their home directories. -/
def accounts : List (Text × Text) :=
  [("root", "/root"), ("daemon", "/usr/sbin"), ("bin", "/bin"), ("sys", "/dev"), ("sync", "/bin"),
   ("games", "/usr/games"), ("man", "/var/cache/man"), ("lp", "/var/spool/lpd"),
   ("mail", "/var/mail"), ("news", "/var/spool/news"), ("uucp", "/var/spool/uucp"),
   ("proxy", "/bin"), ("www-data", "/var/www"), ("backup", "/var/backups"), ("list", "/var/list"),
   ("irc", "/run/ircd"), ("_apt", "/nonexistent"), ("nobody", "/nonexistent")].map
    fun (name, home) => (text name, text home)

/-- The text of the home directory that the first name of a path stands for, after its tilde: one's
    own, or that of an account. A directory that begins with a tilde again counts as unknown. -/
def homeOf (home account : Text) : Except HomeFault Text :=
  if account.isEmpty then
    if (text "~").isPrefixOf home then .error .unknown else .ok home
  else match nameFault? account, accounts.find? fun known => known.1 = account with
    | some fault, _ => .error (.name fault)
    | none, some known => .ok known.2
    | none, none => .error .unknown

/-- Replace a tilde in front of a path by the home directory, or a tilde with the name of an account
    by the directory of that account. -/
def expandHome (home : Text) (p : Path) : Except HomeFault Path :=
  match p with
  | ⟨.workingDirectory, (tilde :: account) :: rest⟩ =>
    if tilde = CodePoint.ofChar '~' then do
      let directory := ofHome (← homeOf home account)
      return ⟨directory.root, directory.names ++ rest⟩
    else .ok p
  | _ => .ok p

/-- Why a path cannot be handed to the system, if it cannot. -/
def fault? (p : Path) : Option NameFault := nameFault? p.toText

/-- The most bytes that a whole path may take. -/
def sizeLimit : Nat := 4095

/-- A path that the system refuses for its length, whatever its names lead to. -/
def isTooLong (p : Path) : Bool := sizeLimit < (nameBytes p.toText).length

example : (ofText (text "/a//b/./c/../d/")).toText = text "/a/b/c/../d" := by decide +kernel

example : ((ofText (text "~/x")).expandHome (text "/h/")).toOption.map toText =
    some (text "/h/x") := by
  decide +kernel

example : ((ofText (text "../x/./y/../z")).absolute (ofText (text "/a/b"))).toText =
    text "/a/x/z" := by
  decide +kernel

end Path

end WindowLayouts
