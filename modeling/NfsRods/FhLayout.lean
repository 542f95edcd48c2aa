import NfsRods.Fh
import NfsRods.Lib.Bytes

/-!
# The layout of a handle

`unfs3_fh_t` is a packed structure, laid over the bytes that a client sends. `uint32` is an
`unsigned long`, so its hashes start at byte 33, whatever `FH_MINLEN` says.
-/

namespace NfsRods

/-- `sizeof(uint32)`: `HAVE_XDR_U_LONG` makes it an `unsigned long`. -/
def sizeofUint32 : Nat := 8

def sizeofUint64 : Nat := 8

/-- `offsetof(unfs3_fh_t, ino)`, and so on. -/
def inoAt : Nat := sizeofUint32

def genAt : Nat := inoAt + sizeofUint64

def pwhashAt : Nat := genAt + sizeofUint32

def lenAt : Nat := pwhashAt + sizeofUint32

def inosAt : Nat := lenAt + 1

/-- `NFS3_FHSIZE`. -/
def nfs3FhSize : Nat := 64

/-- The `fh_length` bytes of a handle that the daemon sends. -/
def fhBytes (fh : Unfs3Fh) : List UInt8 :=
  Bytes.le sizeofUint32 fh.dev.toNat ++ (Bytes.le sizeofUint64 fh.ino.toNat ++
    (Bytes.le sizeofUint32 fh.gen.toNat ++ (Bytes.le sizeofUint32 fh.pwhash.toNat ++
      (Bytes.le 1 fh.len ++ (List.range fh.len).map (fh.inos.getD · 0)))))

/-- The structure that lies at an address. -/
def structAt (mem : List UInt8) : Unfs3Fh :=
  { dev := .ofNat (Bytes.num (mem.take sizeofUint32))
    ino := .ofNat (Bytes.num ((mem.drop inoAt).take sizeofUint64))
    gen := .ofNat (Bytes.num ((mem.drop genAt).take sizeofUint32))
    pwhash := .ofNat (Bytes.num ((mem.drop pwhashAt).take sizeofUint32))
    len := Bytes.num ((mem.drop lenAt).take 1)
    inos := (mem.drop inosAt).take fhMaxLen }

/-- A client's handle as the daemon sees it: its bytes, and what lies behind them. -/
def overlay (data rest : List UInt8) : NfsFh3 := ⟨data.length, structAt (data ++ rest)⟩

end NfsRods
