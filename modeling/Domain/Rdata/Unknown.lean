import Domain.Base.Iana

/-! `UnknownRecordData` of `domain-core`: record data of any type, kept as its
bytes. `Display` writes the generic form of RFC 3597 (`\#`, the length, then one
two-digit hex word per byte), and `scan` reads that form back through the
scanner's `scan_word`, a word at a time, with a closure that pairs hex digits
into bytes. The scanner is not in src/: its input is modelled as the words it
reads, and its `skip_literal` is a parameter of `scan`. -/

namespace Domain.Rdata

/-- The errors `scan` and the modelled scanner raise. -/
inductive SyntaxError
  | expected (literal : String)
  | unexpected (ch : Char)
  | unexpectedEof
  | illegalInteger
  | longGenericData
  | unevenHexString
  deriving DecidableEq, Repr

/-- Modelled from the spec: a word of the scanner's input (the scanner is not in
src/), a non-empty run of characters between whitespace. -/
structure Word where
  chars : List Char
  ne_nil : chars ≠ []
  deriving DecidableEq

/-- Modelled from the spec: the end of a word in the scanner (not in src/); a
word closes only when it has a character. -/
def flushWord (word : List Char) (rest : List Word) : List Word :=
  if h : word = [] then rest else ⟨word, h⟩ :: rest

/-- Modelled from the spec: how the scanner (not in src/) splits its input into
words at whitespace; the words are plain, with no escapes, quotes or parentheses. -/
def splitWords (word : List Char) : List Char → List Word
  | [] => flushWord word []
  | c :: cs => if c.isWhitespace then flushWord word (splitWords [] cs) else splitWords (word ++ [c]) cs

/-- Modelled from the spec: `Scanner::scan_word` on the word the scanner is at
(the scanner is not in src/): `symbolop` on each character in turn, then
`finalop` on the target. -/
def scanWord {T U : Type} (target : T) (symbolop : T → Char → Except SyntaxError T)
    (finalop : T → Except SyntaxError U) (w : Word) : Except SyntaxError U :=
  w.chars.foldlM symbolop target >>= finalop

/-- Modelled from the spec: `u16::scan` (the scanner is not in src/): the next
word, decimal digits whose value fits 16 bits. -/
def scanU16 : List Word → Except SyntaxError (Nat × List Word)
  | [] => .error .unexpectedEof
  | w :: rest =>
    (scanWord 0 (fun n ch =>
        if ch.isDigit ∧ n * 10 + (ch.toNat - 48) < 65536 then .ok (n * 10 + (ch.toNat - 48))
        else .error .illegalInteger) .ok w).map (·, rest)

/-- Modelled from the spec: `Symbol::into_digit(16)` (the scanner is not in src/). -/
def intoDigit16 (ch : Char) : Except SyntaxError UInt8 :=
  if '0' ≤ ch ∧ ch ≤ '9' then .ok (ch.toNat - 48).toUInt8
  else if 'a' ≤ ch ∧ ch ≤ 'f' then .ok (ch.toNat - 87).toUInt8
  else if 'A' ≤ ch ∧ ch ≤ 'F' then .ok (ch.toNat - 55).toUInt8
  else .error (.unexpected ch)

structure UnknownRecordData where
  rtype : Rtype
  data : List UInt8
  deriving DecidableEq, Repr

namespace UnknownRecordData

def fromBytes (rtype : Rtype) (data : List UInt8) : UnknownRecordData := ⟨rtype, data⟩

/-- One digit of `{:x}`. -/
def hexDigitChar (n : Nat) : Char :=
  if n < 10 then Char.ofNat (48 + n) else Char.ofNat (87 + n)

/-- `{:02x}` of a byte. -/
def hex02 (b : UInt8) : List Char := [hexDigitChar (b.toNat / 16), hexDigitChar (b.toNat % 16)]

def display (d : UnknownRecordData) : String :=
  d.data.foldl (fun s ch => s ++ " " ++ String.mk (hex02 ch)) ("\\# " ++ toString d.data.length)

/-- The target of the `scan_word` closure of `scan`: the bytes read so far (the
`&mut` buffer `res`), the bytes still to read, and the pending first digit. -/
structure HexTarget where
  res : List UInt8
  len : Nat
  first : Option UInt8

/-- The `symbolop` closure of `scan`. -/
def hexSymbol (t : HexTarget) (symbol : Char) : Except SyntaxError HexTarget :=
  if t.len = 0 then .error .longGenericData
  else intoDigit16 symbol >>= fun ch =>
    match t.first with
    | some ch1 => .ok { t with res := t.res ++ [ch1 <<< 4 ||| ch], len := t.len - 1 }
    | none => .ok { t with first := some ch }

/-- The `finalop` closure of `scan`, with the buffer it leaves. -/
def hexFinal (t : HexTarget) : Except SyntaxError (List UInt8 × Nat) :=
  if t.first.isSome then .error .unevenHexString else .ok (t.res, t.len)

/-- The `while len > 0` loop of `scan`, a word a pass. -/
def scanHexLoop (res : List UInt8) : Nat → List Word → Except SyntaxError (List UInt8 × List Word)
  | 0, words => .ok (res, words)
  | _ + 1, [] => .error .unexpectedEof
  | len + 1, w :: rest =>
    match scanWord ⟨res, len + 1, none⟩ hexSymbol hexFinal w with
    | .ok (res, len) => scanHexLoop res len rest
    | .error e => .error e

/-- `UnknownRecordData::scan`: the data, and the words after it. The scanner's
`skip_literal` is a parameter: the scanner is not in src/, and whether it takes
the word `\#` for that literal or reads the backslash as an escape is its own. -/
def scan (skipLiteral : String → List Word → Except SyntaxError (List Word)) (rtype : Rtype)
    (words : List Word) : Except SyntaxError (UnknownRecordData × List Word) := do
  let words ← skipLiteral "\\#" words
  let (len, words) ← scanU16 words
  let (res, words) ← scanHexLoop [] len words
  pure (fromBytes rtype res, words)

theorem bind_eq_ok {α β : Type} {x : Except SyntaxError α} {f : α → Except SyntaxError β} {b : β} :
    x >>= f = .ok b ↔ ∃ a, x = .ok a ∧ f a = .ok b := by
  cases x <;> simp [bind, Except.bind]

/-- Every pass of the closure that succeeds leaves a first digit pending: the
first digit sets it and nothing clears it. -/
theorem hexSymbol_first {t t' : HexTarget} {symbol : Char} (h : hexSymbol t symbol = .ok t') :
    t'.first.isSome := by
  unfold hexSymbol at h
  split_ifs at h
  obtain ⟨ch, -, h⟩ := bind_eq_ok.mp h
  cases hf : t.first <;> simp only [hf, Except.ok.injEq] at h <;> subst h <;> simp [hf]

theorem foldlM_hexSymbol_first {c : Char} {cs : List Char} {t t' : HexTarget}
    (h : (c :: cs).foldlM hexSymbol t = .ok t') : t'.first.isSome := by
  induction cs generalizing c t with
  | nil =>
    obtain ⟨t₁, h₁, h₂⟩ := bind_eq_ok.mp h
    exact Except.ok.inj h₂ ▸ hexSymbol_first h₁
  | cons c' cs ih =>
    obtain ⟨t₁, -, h⟩ := bind_eq_ok.mp h
    exact ih h

theorem scanWord_hex_error (t : HexTarget) (w : Word) :
    ∃ e, scanWord t hexSymbol hexFinal w = .error e := by
  obtain ⟨_ | ⟨c, cs⟩, hw⟩ := w
  · exact absurd rfl hw
  · cases hfold : (c :: cs).foldlM hexSymbol t with
    | error e => exact ⟨e, by simp only [scanWord, hfold]; rfl⟩
    | ok t' =>
      refine ⟨.unevenHexString, ?_⟩
      simp only [scanWord, hfold]
      exact if_pos (foldlM_hexSymbol_first hfold)

theorem scanHexLoop_succ_error (res : List UInt8) (len : Nat) (words : List Word) :
    ∃ e, scanHexLoop res (len + 1) words = .error e := by
  cases words with
  | nil => exact ⟨_, rfl⟩
  | cons w rest =>
    obtain ⟨e, he⟩ := scanWord_hex_error ⟨res, len + 1, none⟩ w
    exact ⟨e, by simp only [scanHexLoop, he]⟩

theorem scan_data_nil {skipLiteral : String → List Word → Except SyntaxError (List Word)}
    {rtype : Rtype} {words rest : List Word} {d : UnknownRecordData}
    (h : scan skipLiteral rtype words = .ok (d, rest)) : d.data = [] := by
  obtain ⟨words₁, -, h⟩ := bind_eq_ok.mp h
  obtain ⟨⟨len, words₂⟩, -, h⟩ := bind_eq_ok.mp h
  obtain ⟨⟨res, words₃⟩, hloop, h⟩ := bind_eq_ok.mp h
  cases h
  cases len with
  | zero =>
    simp only [scanHexLoop, Except.ok.injEq, Prod.mk.injEq] at hloop
    rw [← hloop.1]
    rfl
  | succ len =>
    obtain ⟨e, he⟩ := scanHexLoop_succ_error [] len words₂
    cases he.symm.trans hloop

/-- `scan` never reads back what `Display` writes for non-empty data: the closure
of its loop never clears the pending first digit, so every hex word ends as an
uneven hex string, whatever the scanner. On the text `\# 1 ab` of the one-byte
data `ab`, a scanner that takes `\#` for the literal leads `scan` to
`UnevenHexString`, and one that refuses it makes `scan` fail with its error. -/
theorem scan_display_fails :
    (∀ skipLiteral rtype words d rest, scan skipLiteral rtype words = .ok (d, rest) → d.data = []) ∧
    (∀ skipLiteral rtype data rest, data ≠ [] →
      scan skipLiteral rtype (splitWords [] (fromBytes rtype data).display.toList) ≠
        .ok (fromBytes rtype data, rest)) ∧
    ∀ skipLiteral : String → List Word → Except SyntaxError (List Word),
      let words := splitWords [] (fromBytes ⟨1⟩ [171]).display.toList
      (skipLiteral "\\#" words = .ok words.tail →
        scan skipLiteral ⟨1⟩ words = .error .unevenHexString) ∧
      ∀ e, skipLiteral "\\#" words = .error e → scan skipLiteral ⟨1⟩ words = .error e :=
  ⟨fun _ _ _ _ _ => scan_data_nil,
    fun _ _ _ _ hne h => hne (scan_data_nil h),
    fun _ => ⟨fun h => by rw [scan, h]; rfl, fun _ h => by rw [scan, h]; rfl⟩⟩

end UnknownRecordData

end Domain.Rdata
