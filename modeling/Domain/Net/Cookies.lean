import Mathlib.Data.UInt

/-! The timestamp check of `CookiesMiddlewareSvc` (RFC 9018, Section 4.3): a
cookie's timestamp may lie up to an hour in the past and five minutes in the
future. Times are the serial numbers of RFC 1982, 32 bits with wrap-around, so
the check is made with serial addition and the serial order, which is undefined
for two serials `2^31` apart. -/

namespace Domain.Net

/-- Modelled from the spec: `Serial` of `base::serial` (not in src/), a serial
number of RFC 1982 in a `u32`. -/
structure Serial where
  val : UInt32
  deriving DecidableEq, Repr

namespace Serial

/-- Modelled from the spec: `Serial::add` (not in src/), the addition of RFC 1982,
Section 3.1: it asserts (`none`) that the addend is at most `2^31 - 1` and wraps
modulo `2^32`. -/
def add (s : Serial) (other : UInt32) : Option Serial :=
  if other.toNat ≤ 0x7FFFFFFF then some ⟨s.val + other⟩ else none

/-- Modelled from the spec: `PartialOrd for Serial` (not in src/), the order of
RFC 1982, Section 3.2: the distance between the two values decides, and two
serials `2^31` apart are unordered. -/
def partialCmp (a b : Serial) : Option Ordering :=
  if a.val.toNat = b.val.toNat then some .eq
  else if a.val.toNat < b.val.toNat then
    if b.val.toNat - a.val.toNat < 0x80000000 then some .lt
    else if b.val.toNat - a.val.toNat > 0x80000000 then some .gt else none
  else
    if a.val.toNat - b.val.toNat < 0x80000000 then some .gt
    else if a.val.toNat - b.val.toNat > 0x80000000 then some .lt else none

def le (a b : Serial) : Bool :=
  match a.partialCmp b with
  | some .lt | some .eq => true
  | _ => false

theorem le_iff (a b : Serial) :
    a.le b = true ↔ (2 ^ 32 - a.val.toNat + b.val.toNat) % 2 ^ 32 < 2 ^ 31 := by
  have ha := a.val.toNat_lt_size
  have hb := b.val.toNat_lt_size
  simp only [UInt32.size] at ha hb
  unfold le partialCmp
  split_ifs <;> simp <;> omega

end Serial

def fiveMinutesAsSecs : UInt32 := 5 * 60

def oneHourAsSecs : UInt32 := 60 * 60

/-- `CookiesMiddlewareSvc::timestamp_ok`, with `Serial::now()` as `now`; `none`
is the panic of a failed `Serial::add` assertion. -/
def timestampOk (now serial : Serial) : Option Bool := do
  let tooNewAt ← now.add fiveMinutesAsSecs
  let expiresAt ← serial.add oneHourAsSecs
  pure (now.le expiresAt && serial.le tooNewAt)

theorem timestampOk_eq (now serial : Serial) :
    timestampOk now serial = some (now.le ⟨serial.val + 3600⟩ && serial.le ⟨now.val + 300⟩) :=
  rfl

/-- `timestamp_ok` never panics, and accepts a timestamp exactly when its signed
32-bit difference to `now` is between an hour back and five minutes ahead. At a
difference of `2^31` the serial order is undefined and the timestamp is
refused. -/
theorem timestampOk_window (now serial : Serial) :
    timestampOk now serial =
      some (decide (-3600 ≤ (serial.val - now.val).toBitVec.toInt ∧
        (serial.val - now.val).toBitVec.toInt ≤ 300)) := by
  have ha := now.val.toNat_lt_size
  have hb := serial.val.toNat_lt_size
  have h300 : (300 : UInt32).toBitVec.toNat = 300 := rfl
  have h3600 : (3600 : UInt32).toBitVec.toNat = 3600 := rfl
  rw [timestampOk_eq, Option.some.injEq, Bool.eq_iff_iff, Bool.and_eq_true, Serial.le_iff,
    Serial.le_iff, decide_eq_true_iff]
  simp only [UInt32.add_def, UInt32.sub_def, UInt32.toNat, BitVec.toNat_add,
    BitVec.toInt_eq_toNat_cond, BitVec.toNat_sub, h300, h3600]
  simp only [UInt32.toNat, UInt32.size] at ha hb
  split_ifs <;> omega

end Domain.Net
