import Mathlib.Data.List.Basic

/-! IANA code points the modelled code compares against. Record types,
response codes and DNSSEC algorithm numbers are plain integer codes in the
source, so they are codes here too. -/

namespace Domain

/-- Modelled from the spec: `Rtype` (the iana module is not in src/), a record
type as its IANA number. -/
structure Rtype where
  code : Nat
  deriving DecidableEq, Repr

namespace Rtype

def ns : Rtype := ⟨2⟩
def cname : Rtype := ⟨5⟩
def soa : Rtype := ⟨6⟩
def dname : Rtype := ⟨39⟩
def ds : Rtype := ⟨43⟩
def rrsig : Rtype := ⟨46⟩
def nsec : Rtype := ⟨47⟩
def dnskey : Rtype := ⟨48⟩
def nsec3 : Rtype := ⟨50⟩
def ixfr : Rtype := ⟨251⟩
def axfr : Rtype := ⟨252⟩

end Rtype

/-- Modelled from the spec: `OptRcode` (the iana module is not in src/), a
response code as its IANA number. -/
structure OptRcode where
  code : Nat
  deriving DecidableEq, Repr

namespace OptRcode

def noerror : OptRcode := ⟨0⟩
def formerr : OptRcode := ⟨1⟩
def servfail : OptRcode := ⟨2⟩
def nxdomain : OptRcode := ⟨3⟩
def notimp : OptRcode := ⟨4⟩
def refused : OptRcode := ⟨5⟩
def notauth : OptRcode := ⟨9⟩
def badcookie : OptRcode := ⟨23⟩

end OptRcode

/-! Modelled from the spec: the `SecAlg` numbers (the iana module is not in
src/), plain codes as the records carry them. -/
namespace SecAlg

def rsasha1 : Nat := 5
def rsasha1Nsec3Sha1 : Nat := 7
def rsasha256 : Nat := 8
def rsasha512 : Nat := 10
def ecdsap256sha256 : Nat := 13
def ecdsap384sha384 : Nat := 14
def ed25519 : Nat := 15
def ed448 : Nat := 16

end SecAlg

end Domain
