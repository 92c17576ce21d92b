import ScalarLang.Compiler.Basic

/-!
# Files

The command reads texts and writes objects.  A directory is a value that holds files
and folders by their places, and in which both can fail in the ways that they fail
on a disk: a path is followed step by step, and every step starts in a folder.
-/

set_option autoImplicit false

namespace ScalarLang

namespace CommandLine

inductive FileError where
  | notFound
  | notFolder
  | isFolder
  | nameTooLong
  | notText
  | other (text : String)
deriving DecidableEq, Repr

def FileError.message : FileError → String
  | .notFound => "No such file or directory (os error 2)"
  | .notFolder => "Not a directory (os error 20)"
  | .isFolder => "Is a directory (os error 21)"
  | .nameTooLong => "File name too long (os error 36)"
  | .notText => "stream did not contain valid UTF-8"
  | .other text => text

structure EmitError where
  text : String
deriving DecidableEq, Repr

def EmitError.message (error : EmitError) : String := "error emitting object: " ++ error.text

/-- How texts are read, and how objects are turned into data and the data written to files. -/
structure FileAccess (m : Type → Type) (Data : Type) where
  read : String → m (Except FileError String)
  emit : ObjectFile → Except EmitError Data
  write : String → Data → m (Except FileError Unit)

inductive Content where
  | bytes (data : ByteArray)
  | object (object : ObjectFile)

inductive Node where
  | folder
  | file (content : Content)
  /-- The device that is empty and forgets what is written to it. -/
  | sink

inductive Origin where
  | root
  /-- The directory, or a folder some levels above it. -/
  | above (levels : Nat)
deriving DecidableEq, Repr

structure Place where
  origin : Origin
  names : List String
deriving DecidableEq, Repr

namespace Place

def here : Place := ⟨.above 0, []⟩

/-- The folder that a place is in.  The root is in itself. -/
def parent (place : Place) : Place :=
  match place.names, place.origin with
  | [], .root => place
  | [], .above levels => ⟨.above (levels + 1), []⟩
  | names, origin => ⟨origin, names.dropLast⟩

def child (place : Place) (name : String) : Place := ⟨place.origin, place.names ++ [name]⟩

end Place

structure Path where
  start : Place
  steps : List String
  endsInSlash : Bool
deriving DecidableEq, Repr

namespace Path

def ofText (text : String) : Path :=
  { start := if text.startsWith "/" then ⟨.root, []⟩ else .here
    steps := (text.splitOn "/").filter fun step => step != ""
    endsInSlash := text.endsWith "/" }

def nameLimit : Nat := 255

/-- The number of bytes that a path has to stay below. -/
def lengthLimit : Nat := 4096

def ofText? (text : String) : Except FileError Path :=
  if text = "" then .error .notFound
  else if lengthLimit ≤ text.utf8ByteSize then .error .nameTooLong
  else .ok (ofText text)

end Path

structure Directory where
  entries : List (Place × Node)

namespace Directory

def empty : Directory := ⟨[]⟩

/-- What is at a place.  Places where names start are folders, and the disk has a
folder of devices. -/
def node? (directory : Directory) (place : Place) : Option Node :=
  if place.names.isEmpty then some .folder
  else if place = ⟨.root, ["dev"]⟩ then some .folder
  else if place = ⟨.root, ["dev", "null"]⟩ then some .sink
  else (directory.entries.find? fun entry => entry.1 == place).map Prod.snd

def put (directory : Directory) (place : Place) (node : Node) : Directory :=
  ⟨(place, node) :: directory.entries.filter fun entry => entry.1 != place⟩

def add (directory : Directory) (path : String) (node : Node) : Directory :=
  let names := (Path.ofText path).steps.filter fun step => step != "."
  let ways := (List.range names.length).drop 1 |>.map fun count => names.take count
  (ways.foldl (fun made way => made.put ⟨.above 0, way⟩ .folder) directory).put
    ⟨.above 0, names⟩ node

def requireFolder (directory : Directory) (place : Place) : Except FileError Unit :=
  match directory.node? place with
  | none => .error .notFound
  | some .folder => .ok ()
  | some _ => .error .notFolder

def step (directory : Directory) (place : Place) (name : String) : Except FileError Place :=
  match directory.requireFolder place with
  | .error error => .error error
  | .ok () =>
    if name = "." then .ok place
    else if name = ".." then .ok place.parent
    else if Path.nameLimit < name.utf8ByteSize then .error .nameTooLong
    else .ok (place.child name)

def walk (directory : Directory) (place : Place) : List String → Except FileError Place
  | [] => .ok place
  | name :: rest =>
    match directory.step place name with
    | .error error => .error error
    | .ok next => walk directory next rest

/-- What is at the end of a path.  Only a folder has a slash after it. -/
def find (directory : Directory) (text : String) : Except FileError Node :=
  match Path.ofText? text with
  | .error error => .error error
  | .ok path =>
    match directory.walk path.start path.steps with
    | .error error => .error error
    | .ok place =>
      match directory.node? place with
      | none => .error .notFound
      | some .folder => .ok .folder
      | some node => if path.endsInSlash then .error .notFolder else .ok node

def read (directory : Directory) (path : String) : Except FileError String :=
  match directory.find path with
  | .error error => .error error
  | .ok .folder => .error .isFolder
  | .ok .sink => .ok ""
  | .ok (.file (.object _)) => .error .notText
  | .ok (.file (.bytes data)) =>
    match String.fromUTF8? data with
    | some text => .ok text
    | none => .error .notText

/-- The place of a file to be written at a path.  A path that ends as only paths of
folders do is refused once the way there was found. -/
def writePlace (directory : Directory) (path : Path) : Except FileError Place :=
  match path.steps.getLast? with
  | none => .error .isFolder
  | some name =>
    match directory.walk path.start path.steps.dropLast with
    | .error error => .error error
    | .ok folder =>
      match directory.requireFolder folder with
      | .error error => .error error
      | .ok () =>
        if name = "." || name = ".." || path.endsInSlash then .error .isFolder
        else directory.step folder name

def write (directory : Directory) (text : String) (object : ObjectFile) :
    Except FileError Directory :=
  match Path.ofText? text with
  | .error error => .error error
  | .ok path =>
    match directory.writePlace path with
    | .error error => .error error
    | .ok place =>
      match directory.node? place with
      | some .folder => .error .isFolder
      | some .sink => .ok directory
      | _ => .ok (directory.put place (.file (.object object)))

end Directory

/-- Files of a directory that is passed on from step to step, and that holds objects as they are. -/
def FileAccess.ofDirectory : FileAccess (StateM Directory) ObjectFile where
  read path := do
    return (← get).read path
  emit object := .ok object
  write path object := do
    match (← get).write path object with
    | .ok directory =>
      set directory
      return .ok ()
    | .error error => return .error error

end CommandLine

end ScalarLang
