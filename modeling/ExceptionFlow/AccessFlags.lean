/-!
Access flags of classes and methods: sixteen bits, of which a class and a method know different
ones.
-/
namespace ExceptionFlow

/-- A named bit. -/
structure AccessFlag where
  name : String
  mask : UInt16
  deriving DecidableEq

/-- The bits as they stand in the class file, unknown ones included. -/
structure AccessFlags where
  bits : UInt16
  deriving DecidableEq

namespace AccessFlag

def publicAccess : AccessFlag := ⟨"PUBLIC", 0x0001⟩

def staticMember : AccessFlag := ⟨"STATIC", 0x0008⟩

def nativeCode : AccessFlag := ⟨"NATIVE", 0x0100⟩

def abstractMember : AccessFlag := ⟨"ABSTRACT", 0x0400⟩

/-- The flags of a class, in increasing order. -/
def ofClass : List AccessFlag :=
  [publicAccess, ⟨"FINAL", 0x0010⟩, ⟨"SUPER", 0x0020⟩, ⟨"INTERFACE", 0x0200⟩, abstractMember,
    ⟨"SYNTHETIC", 0x1000⟩, ⟨"ANNOTATION", 0x2000⟩, ⟨"ENUM", 0x4000⟩]

/-- The flags of a method, in increasing order. -/
def ofMethod : List AccessFlag :=
  [publicAccess, ⟨"PRIVATE", 0x0002⟩, ⟨"PROTECTED", 0x0004⟩, staticMember, ⟨"FINAL", 0x0010⟩,
    ⟨"SYNCHRONIZED", 0x0020⟩, ⟨"BRIDGE", 0x0040⟩, ⟨"VARARGS", 0x0080⟩, nativeCode,
    abstractMember, ⟨"STRICT", 0x0800⟩, ⟨"SYNTHETIC", 0x1000⟩]

end AccessFlag

namespace AccessFlags

def ofFlag (flag : AccessFlag) : AccessFlags := ⟨flag.mask⟩

def has (flags : AccessFlags) (flag : AccessFlag) : Bool :=
  flags.bits &&& flag.mask != 0

/-- The set flags of `vocabulary`, in its order. -/
def named (flags : AccessFlags) (vocabulary : List AccessFlag) : List AccessFlag :=
  vocabulary.filter flags.has

/-- The bits that `vocabulary` names. -/
def known (flags : AccessFlags) (vocabulary : List AccessFlag) : AccessFlags :=
  ⟨flags.bits &&& vocabulary.foldl (fun mask flag => mask ||| flag.mask) 0⟩

/-- No bit is set that `vocabulary` does not name. -/
def isValid (flags : AccessFlags) (vocabulary : List AccessFlag) : Bool :=
  flags.known vocabulary == flags

end AccessFlags

end ExceptionFlow
