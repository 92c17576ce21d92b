import ScalarLang.Ir.Type

/-!
# Targets

A target is named by parts with hyphens between them: the architecture, the vendor, the system, the
environment and the format of its objects.  All but the architecture may be left out, and a part
is what comes first in this order among what its text can be.  The parts of the name decide how
functions are called, how wide addresses are and which format objects have.
-/

set_option autoImplicit false

namespace ScalarLang

/-! ## Names -/

inductive ObjectFormat where
  | elf
  | coff
  | machO
  | wasm
  | xcoff
  | unknown
deriving DecidableEq, Repr

namespace ObjectFormat

def text : ObjectFormat → String
  | .elf => "elf"
  | .coff => "coff"
  | .machO => "macho"
  | .wasm => "wasm"
  | .xcoff => "xcoff"
  | .unknown => "unknown"

def ofText? (text : String) : Option ObjectFormat :=
  [elf, coff, machO, wasm, xcoff, unknown].find? fun format => format.text == text

def isSupported : ObjectFormat → Bool
  | .elf => true
  | .coff => true
  | .machO => true
  | _ => false

end ObjectFormat

structure TargetName where
  architecture : String
  vendor : Option String
  system : Option String
  environment : Option String
  format : Option ObjectFormat
deriving DecidableEq, Repr

namespace TargetName

def isVersion (text : String) : Bool :=
  let numbers := text.splitOn "."
  numbers.length == 3 && numbers.all fun number =>
    !number.isEmpty && number.all Char.isDigit && (number.toNat?.getD 0) < 65536

def isVersionedSystem (text : String) : Bool :=
  text.startsWith "macosx" && isVersion (text.drop 6).toString

def isSystem (text : String) : Bool :=
  isVersionedSystem text ||
    ["unknown", "aix", "amdhsa", "bitrig", "cloudabi", "cuda", "darwin", "dragonfly",
      "emscripten", "espidf", "freebsd", "fuchsia", "haiku", "hermit", "horizon", "hurd",
      "illumos", "ios", "l4re", "linux", "nebulet", "netbsd", "none", "openbsd", "psp",
      "redox", "solaris", "solid_asp3", "tvos", "uefi", "visionos", "vxworks", "wasi",
      "wasip1", "wasip2", "watchos", "windows"].contains text

def isEnvironment (text : String) : Bool :=
  ["unknown", "amdgiz", "android", "androideabi", "eabi", "eabihf", "gnu", "gnuabi64",
    "gnueabi", "gnueabihf", "gnuspe", "gnux32", "gnu_ilp32", "gnullvm", "hermitkernel",
    "hurdkernel", "linuxkernel", "macabi", "musl", "musleabi", "musleabihf", "muslabi64",
    "msvc", "newlib", "none", "kernel", "uclibc", "uclibceabi", "uclibceabihf", "sgx",
    "sim", "softfloat", "spe", "threads", "ohos"].contains text

/-- Whether a text names a vendor.  Vendors have any names that are not those of
systems, environments and formats; a vendor that is not known has a name too. -/
def isVendor (text : String) : Bool :=
  text == "unknown" ||
    !(isSystem text || isEnvironment text || (ObjectFormat.ofText? text).isSome)

def takePart (accepts : String → Bool) : List String → Option String × List String
  | [] => (none, [])
  | part :: rest => if accepts part then (some part, rest) else (none, part :: rest)

def architectureOf (text : String) : String := if text = "arm64" then "aarch64" else text

def ofText (text : String) : TargetName :=
  let parts := text.splitOn "-"
  let (vendor, parts') := takePart isVendor (parts.drop 1)
  let (system, parts') := takePart isSystem parts'
  let (environment, parts') := takePart isEnvironment parts'
  { architecture := architectureOf (parts.headD "")
    vendor, system, environment
    format := parts'.head?.bind ObjectFormat.ofText? }

end TargetName

/-! ## What code is made for -/

/-- A build of the compiler: the target it runs on, and the architectures it makes code for. -/
structure Platform where
  host : TargetName
  supports : String → Bool

structure Target where
  architecture : String
  convention : Ir.CallConvention
  pointer : Ir.Ty
  format : ObjectFormat
  isSupported : Bool
deriving DecidableEq, Repr

namespace TargetName

def isDarwin (system : String) : Bool :=
  isVersionedSystem system || ["darwin", "ios", "tvos", "visionos", "watchos"].contains system

/-- The format of objects of a system.  For a target that is said to run without one
it is known in embedded environments only. -/
def defaultFormat (name : TargetName) : ObjectFormat :=
  match name.system with
  | none => .elf
  | some system =>
    if system = "none" then
      if name.environment = some "eabi" ∨ name.environment = some "eabihf" then .elf
      else .unknown
    else if system = "aix" then .xcoff
    else if system = "windows" then .coff
    else if isDarwin system then .machO
    else .elf

end TargetName

namespace Target

def ofParts (platform : Platform) (name : TargetName) : Target :=
  { architecture := name.architecture
    convention := if name.system = some "windows" then .windowsFastcall else .systemV
    pointer :=
      if name.environment = some "gnux32" ∨ name.environment = some "gnu_ilp32" then .i32
      else .i64
    format := name.format.getD name.defaultFormat
    isSupported := platform.supports name.architecture }

end Target

namespace Platform

def target (platform : Platform) : Target := .ofParts platform platform.host

/-- A build for one architecture, which is its own. -/
def standard : Platform :=
  ⟨⟨"x86_64", some "unknown", some "linux", some "gnu", none⟩, fun name => name == "x86_64"⟩

end Platform

namespace Target

def ofName (name : String) (platform : Platform := .standard) : Target :=
  ofParts platform (.ofText name)

def default : Target := Platform.standard.target

end Target

end ScalarLang
