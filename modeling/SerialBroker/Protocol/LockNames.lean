import Mathlib.Data.Nat.Digits.Lemmas
import SerialBroker.Core.Validation
import SerialBroker.Protocol.WireMessages

/-!
# The names of the locks

The lock names of `protocol/version.ts` and of `storage/persistence-hold.ts`, as they are joined
from their parts. A configuration name is one that validation accepts; a term, a sender and an
identity are what `decodeMessage` admits as an identifier, and a tab limit what it admits as one.
How a number is written is a parameter, `String`.

The configuration name comes last, so it may contain the separator. Nothing keeps it out of a term
and of a sender, which are read from the bus.
-/

namespace SerialBroker

/-- The separator of the parts. -/
def slash : UInt16 := 0x2f

/-- `${NAMESPACE}/<family>/v1/`, `PROTOCOL_VERSION` and `STORAGE_SCHEMA_VERSION` being one both. -/
def lockNamePrefix (family : String) : JsString :=
  js "serial-broker" ++ slash :: js family ++ slash :: js "v1" ++ [slash]

/-- What a lock name is built from. -/
inductive LockParts
  | owner (configName : ConfigurationName)
  | tabSlot (configName : ConfigurationName) (maxTabs : Wire.TabLimit) (place : ℕ)
  | tabSlotGate (configName : ConfigurationName) (maxTabs : Wire.TabLimit)
  | term (configName : ConfigurationName) (termId clientId : Wire.Identifier)
      (maxTabs : Wire.TabLimit)
  | context (clientId : Wire.Identifier)
  | worker (workerId : Wire.Identifier)
  | persistence (configName : ConfigurationName)

section names

variable (numberText : JsNumber → JsString)

def ownerLockName (configName : JsString) : JsString := lockNamePrefix "owner" ++ configName

def tabSlotLockName (configName : JsString) (maxTabs place : JsNumber) : JsString :=
  lockNamePrefix "tab-slot" ++
    (numberText maxTabs ++ slash :: (numberText place ++ slash :: configName))

def termLockName (configName term clientId : JsString) (maxTabs : JsNumber) : JsString :=
  lockNamePrefix "term" ++
    (numberText maxTabs ++ slash :: (term ++ slash :: (clientId ++ slash :: configName)))

def contextLockName (clientId : JsString) : JsString := lockNamePrefix "context" ++ clientId

def workerLockName (workerId : JsString) : JsString := lockNamePrefix "worker" ++ workerId

def tabSlotGateLockName (configName : JsString) (maxTabs : JsNumber) : JsString :=
  lockNamePrefix "tab-slot-gate" ++ (numberText maxTabs ++ slash :: configName)

def persistenceLockName (configName : JsString) : JsString :=
  lockNamePrefix "persisted" ++ configName

def LockParts.name : LockParts → JsString
  | owner configName => ownerLockName configName.val
  | tabSlot configName maxTabs place =>
    tabSlotLockName numberText configName.val maxTabs.val (.finite place)
  | tabSlotGate configName maxTabs => tabSlotGateLockName numberText configName.val maxTabs.val
  | term configName termId clientId maxTabs =>
    termLockName numberText configName.val termId.val clientId.val maxTabs.val
  | context clientId => contextLockName clientId.val
  | worker workerId => workerLockName workerId.val
  | persistence configName => persistenceLockName configName.val

end names

namespace LockParts

def family : LockParts → String
  | owner _ => "owner"
  | tabSlot .. => "tab-slot"
  | tabSlotGate .. => "tab-slot-gate"
  | term .. => "term"
  | context _ => "context"
  | worker _ => "worker"
  | persistence _ => "persisted"

end LockParts

/-! ### texts cut at a separator -/

/-- The ways to cut a text at a separator. -/
def cutsAtSlash : JsString → List (JsString × JsString)
  | [] => []
  | codeUnit :: text =>
    let later := (cutsAtSlash text).map fun cut => (codeUnit :: cut.1, cut.2)
    if codeUnit = slash then ([], text) :: later else later

theorem mem_cutsAtSlash {text front rest : JsString} :
    (front, rest) ∈ cutsAtSlash text ↔ text = front ++ slash :: rest := by
  induction text generalizing front with
  | nil => simp [cutsAtSlash]
  | cons codeUnit text ih =>
    have hlater : (front, rest) ∈ (cutsAtSlash text).map (fun cut => (codeUnit :: cut.1, cut.2)) ↔
        ∃ front', front = codeUnit :: front' ∧ text = front' ++ slash :: rest := by
      simp only [List.mem_map, Prod.exists, Prod.mk.injEq]
      constructor
      · rintro ⟨front', rest', hmem, rfl, rfl⟩
        exact ⟨front', rfl, ih.mp hmem⟩
      · rintro ⟨front', rfl, htext⟩
        exact ⟨front', rest, ih.mpr htext, rfl, rfl⟩
    rw [cutsAtSlash]
    cases front with
    | nil =>
      split
      case isTrue hslash =>
        rw [List.mem_cons, hlater]
        simp [hslash, eq_comm]
      case isFalse hslash =>
        rw [hlater]
        simp [hslash]
    | cons first front =>
      have hsame : (first :: front, rest) ∈ (cutsAtSlash text).map (fun cut =>
          (codeUnit :: cut.1, cut.2)) ↔
          codeUnit :: text = first :: front ++ slash :: rest := by
        rw [hlater]
        simp only [List.cons.injEq, List.cons_append]
        constructor
        · rintro ⟨front', ⟨rfl, rfl⟩, htext⟩
          exact ⟨rfl, htext⟩
        · rintro ⟨rfl, htext⟩
          exact ⟨front, ⟨rfl, rfl⟩, htext⟩
      split
      case isTrue hslash =>
        rw [List.mem_cons, hsame]
        simp
      case isFalse hslash => exact hsame

/-- A text without the separator is cut off in one way. -/
theorem append_slash_inj {front front' rest rest' : JsString} (hfront : slash ∉ front)
    (hfront' : slash ∉ front')
    (h : front ++ slash :: rest = front' ++ slash :: rest') : front = front' ∧ rest = rest' := by
  induction front generalizing front' with
  | nil =>
    cases front' with
    | nil => exact ⟨rfl, (List.cons.inj h).2⟩
    | cons first front' =>
      exact absurd (List.cons.inj h).1 fun heq => hfront' (heq ▸ List.mem_cons_self)
  | cons first front ih =>
    cases front' with
    | nil => exact absurd (List.cons.inj h).1 fun heq => hfront (heq ▸ List.mem_cons_self)
    | cons first' front' =>
      obtain ⟨rfl, htail⟩ := List.cons.inj h
      obtain ⟨rfl, rfl⟩ :=
        ih (fun hmem => hfront (List.mem_cons_of_mem _ hmem)) (fun hmem =>
        hfront' (List.mem_cons_of_mem _ hmem)) htail
      exact ⟨rfl, rfl⟩

/-! ### families -/

def lockFamilies : List String :=
  ["owner", "tab-slot", "tab-slot-gate", "term", "context", "worker", "persisted"]

namespace LockParts

variable {numberText : JsNumber → JsString} {x y : LockParts}

theorem family_mem (x : LockParts) : x.family ∈ lockFamilies := by
  cases x <;> simp [family, lockFamilies]

/-- No family's prefix begins the name of a lock of another. -/
theorem prefixes_apart : ∀ family ∈ lockFamilies, ∀ family' ∈ lockFamilies,
    lockNamePrefix family <+: lockNamePrefix family' → family = family' := by
  decide

theorem family_eq (h : x.name numberText = y.name numberText) : x.family = y.family := by
  have hprefix : ∀ z : LockParts, lockNamePrefix z.family <+: z.name numberText := fun z => by
    cases z <;> exact List.prefix_append ..
  have hx := hprefix x
  have hy := hprefix y
  rw [h] at hx
  obtain hle | hge := List.prefix_or_prefix_of_prefix hx hy
  · exact prefixes_apart _ x.family_mem _ y.family_mem hle
  · exact (prefixes_apart _ y.family_mem _ x.family_mem hge).symm

/-- A count, or `Infinity`. -/
def isCount (n : JsNumber) : Bool := n = .infinity false || (n.isInteger && n.isAtLeast 0)

theorem isCount_of_isTabLimit {n : JsNumber} (hn : Wire.isTabLimit n = true) :
    isCount n = true := by
  rw [Wire.isTabLimit, Bool.or_eq_true, Bool.and_eq_true] at hn
  rw [isCount, Bool.or_eq_true, Bool.and_eq_true]
  refine hn.imp_right fun hinteger => ⟨hinteger.1, ?_⟩
  cases n with
  | finite q =>
    have hle := hinteger.2
    simp only [JsNumber.isAtLeast, decide_eq_true_eq] at hle ⊢
    exact le_trans (by norm_num) hle
  | infinity isNegative => exact hinteger.2
  | nan => exact hinteger.2

theorem isCount_natCast (n : ℕ) : isCount (.finite n) = true := by
  simp [isCount, JsNumber.isInteger, JsNumber.isAtLeast]

/-- A term lock is named in one way only: no other cut of its parts gives an identifier, an
identifier and a configuration name. -/
def IsCutOnce : LockParts → Prop
  | .term configName termId clientId _ =>
    ∀ cut ∈ cutsAtSlash (termId.val ++ slash :: (clientId.val ++ slash :: configName.val)),
      ∀ cut' ∈ cutsAtSlash cut.2,
      (cut.1 ≠ [] ∧ cut.1.length ≤ Wire.maxIdentifierLength) →
      (cut'.1 ≠ [] ∧ cut'.1.length ≤ Wire.maxIdentifierLength) →
      (cut'.2 ≠ [] ∧ cut'.2.length ≤ Wire.maxConfigNameLength ∧
        cut'.2.any isControlCharacter = false ∧
        hasUnpairedSurrogate cut'.2 = false) →
      cut.1 = termId.val ∧ cut'.1 = clientId.val
  | _ => True

/-- Neither the term nor its sender contains the separator. -/
def IsPlain : LockParts → Prop
  | .term _ termId clientId _ => slash ∉ termId.val ∧ slash ∉ clientId.val
  | _ => True

theorem append_prefix_inj {family : String} {rest rest' : JsString}
    (h : lockNamePrefix family ++ rest = lockNamePrefix family ++ rest') :
    rest = rest' := List.append_cancel_left h

section injective

variable (hslash : ∀ n, slash ∉ numberText n)
  (hnumber : ∀ m n, isCount m = true → isCount n = true → numberText m = numberText n → m = n)

include hslash hnumber

/-- The limit comes off first. -/
theorem limit_eq {m n : Wire.TabLimit} {rest rest' : JsString}
    (h : numberText m.val ++ slash :: rest = numberText n.val ++ slash :: rest') :
    m = n ∧ rest = rest' := by
  obtain ⟨htext, hrest⟩ := append_slash_inj (hslash _) (hslash _) h
  exact ⟨Subtype.ext (hnumber _ _ (isCount_of_isTabLimit m.property)
    (isCount_of_isTabLimit n.property) htext), hrest⟩

/-- Two names are equal only for the same parts, unless both are of terms. -/
theorem eq_of_name (h : x.name numberText = y.name numberText) (hterm : x.family ≠ "term") :
    x = y := by
  have hfamily := family_eq h
  cases x with
  | owner configName =>
    cases y with
    | owner configName' => exact congrArg owner (Subtype.ext (append_prefix_inj h))
    | _ => simp [family] at hfamily
  | tabSlot configName maxTabs place =>
    cases y with
    | tabSlot configName' maxTabs' place' =>
      obtain ⟨rfl, hrest⟩ := limit_eq hslash hnumber (append_prefix_inj h)
      obtain ⟨hplace, hname⟩ := append_slash_inj (hslash _) (hslash _) hrest
      have hplace := JsNumber.finite.inj
        (hnumber _ _ (isCount_natCast place) (isCount_natCast place') hplace)
      obtain rfl : place = place' := by exact_mod_cast hplace
      rw [Subtype.ext hname]
    | _ => simp [family] at hfamily
  | tabSlotGate configName maxTabs =>
    cases y with
    | tabSlotGate configName' maxTabs' =>
      obtain ⟨rfl, hname⟩ := limit_eq hslash hnumber (append_prefix_inj h)
      rw [Subtype.ext hname]
    | _ => simp [family] at hfamily
  | term configName termId clientId maxTabs => exact absurd rfl hterm
  | context clientId =>
    cases y with
    | context clientId' => exact congrArg context (Subtype.ext (append_prefix_inj h))
    | _ => simp [family] at hfamily
  | worker workerId =>
    cases y with
    | worker workerId' => exact congrArg worker (Subtype.ext (append_prefix_inj h))
    | _ => simp [family] at hfamily
  | persistence configName =>
    cases y with
    | persistence configName' => exact congrArg persistence (Subtype.ext (append_prefix_inj h))
    | _ => simp [family] at hfamily

/-- What the names of two term locks have in common if they are equal. -/
theorem of_term_name {configName : ConfigurationName} {termId clientId : Wire.Identifier}
    {maxTabs : Wire.TabLimit}
    (h : (term configName termId clientId maxTabs).name numberText = y.name numberText) :
    ∃ configName' termId' clientId', y = term configName' termId' clientId' maxTabs ∧
      termId.val ++ slash :: (clientId.val ++ slash :: configName.val) =
        termId'.val ++ slash :: (clientId'.val ++ slash :: configName'.val) := by
  have hfamily := family_eq h
  cases y with
  | term configName' termId' clientId' maxTabs' =>
    obtain ⟨rfl, hrest⟩ := limit_eq hslash hnumber (append_prefix_inj h)
    exact ⟨configName', termId', clientId', rfl, hrest⟩
  | _ => simp [family] at hfamily

/-- **The names of the locks.** A name is that of no other lock exactly if its parts can be cut in
one way only, and two locks whose terms and senders are free of the separator never share a name. -/
theorem name_injective_iff :
    (∀ x : LockParts, (∀ y, x.name numberText = y.name numberText → x = y) ↔ x.IsCutOnce) ∧
      ∀ x y : LockParts, x.IsPlain → y.IsPlain → x.name numberText = y.name numberText → x = y := by
  refine ⟨fun x => ⟨fun hunique => ?_, fun hcut y h => ?_⟩, fun x y hx hy h => ?_⟩
  · cases x with
    | term configName termId clientId maxTabs =>
      intro cut hmem cut' hmem' hterm hclient hname
      have htext := mem_cutsAtSlash.mp hmem
      rw [mem_cutsAtSlash.mp (show (cut'.1, cut'.2) ∈ cutsAtSlash cut.2 from hmem')] at htext
      have hsame := hunique (.term ⟨cut'.2, hname⟩ ⟨cut.1, hterm⟩ ⟨cut'.1, hclient⟩ maxTabs)
        (congrArg (fun rest =>
          lockNamePrefix "term" ++ (numberText maxTabs.val ++ slash :: rest)) htext)
      obtain ⟨_, htermId, hclientId, _⟩ := LockParts.term.inj hsame
      exact ⟨(congrArg Subtype.val htermId).symm, (congrArg Subtype.val hclientId).symm⟩
    | _ => trivial
  · cases x with
    | term configName termId clientId maxTabs =>
      obtain ⟨configName', termId', clientId', rfl, htext⟩ := of_term_name hslash hnumber h
      obtain ⟨hterm, hclient⟩ :=
          hcut (termId'.val, clientId'.val ++ slash :: configName'.val) (mem_cutsAtSlash.mpr htext)
        (clientId'.val, configName'.val) (mem_cutsAtSlash.mpr rfl) termId'.property
          clientId'.property configName'.property
      have hterm : termId'.val = termId.val := hterm
      have hclient : clientId'.val = clientId.val := hclient
      rw [hterm, hclient] at htext
      have hname := (List.cons.inj
        (List.append_cancel_left (List.cons.inj (List.append_cancel_left htext)).2)).2
      rw [Subtype.ext hterm, Subtype.ext hclient, Subtype.ext hname]
    | _ => exact eq_of_name hslash hnumber h (by simp [family])
  · cases x with
    | term configName termId clientId maxTabs =>
      obtain ⟨configName', termId', clientId', rfl, htext⟩ := of_term_name hslash hnumber h
      obtain ⟨hterm, hrest⟩ := append_slash_inj hx.1 hy.1 htext
      obtain ⟨hclient, hname⟩ := append_slash_inj hx.2 hy.2 hrest
      rw [Subtype.ext hterm, Subtype.ext hclient, Subtype.ext hname]
    | _ => exact eq_of_name hslash hnumber h (by simp [family])

end injective

/-! ### how counts are written -/

def digitText (digit : ℕ) : UInt16 := UInt16.ofNat (0x30 + digit)

/-- The digits of a count, the first one first. -/
def decimalDigits (n : ℕ) : List ℕ := if n = 0 then [0] else (Nat.digits 10 n).reverse

/-- A count in decimal, and `Infinity`. -/
def decimalText : JsNumber → JsString
  | .nan => js "NaN"
  | .infinity isNegative => js (if isNegative then "-Infinity" else "Infinity")
  | .finite q => (decimalDigits q.num.natAbs).map digitText

theorem decimalDigits_lt {n digit : ℕ} (h : digit ∈ decimalDigits n) : digit < 10 := by
  rw [decimalDigits] at h
  split at h
  · rw [List.mem_singleton.mp h]
    decide
  · exact Nat.digits_lt_base (by decide) (List.mem_reverse.mp h)

theorem ofDigits_decimalDigits (n : ℕ) : Nat.ofDigits 10 (decimalDigits n).reverse = n := by
  rw [decimalDigits]
  split
  case isTrue hzero => rw [hzero]; rfl
  case isFalse => rw [List.reverse_reverse, Nat.ofDigits_digits]

theorem digitText_toNat {digit : ℕ} (h : digit < 10) : (digitText digit).toNat = 0x30 + digit := by
  rw [digitText, UInt16.toNat_ofNat']
  omega

theorem mem_digitTexts {n : ℕ} {codeUnit : UInt16}
    (h : codeUnit ∈ (decimalDigits n).map digitText) :
    0x30 ≤ codeUnit.toNat ∧ codeUnit.toNat ≤ 0x39 := by
  obtain ⟨digit, hdigit, rfl⟩ := List.mem_map.mp h
  have hlt := decimalDigits_lt hdigit
  rw [digitText_toNat hlt]
  omega

theorem slash_notMem_decimalText (n : JsNumber) : slash ∉ decimalText n := by
  cases n with
  | nan => decide
  | infinity isNegative => cases isNegative <;> decide
  | finite q => exact fun hmem => absurd (mem_digitTexts hmem).1 (by decide)

theorem digitTexts_injective {m n : ℕ}
    (h : (decimalDigits m).map digitText = (decimalDigits n).map digitText) : m = n := by
  have hback : ∀ k, ((decimalDigits k).map digitText).map (fun codeUnit =>
      codeUnit.toNat - 0x30) = decimalDigits k := by
    intro k
    rw [List.map_map]
    refine (List.map_congr_left fun digit hdigit => ?_).trans (List.map_id _)
    simp only [Function.comp_apply, digitText_toNat (decimalDigits_lt hdigit), id_eq]
    omega
  have hdigits : decimalDigits m = decimalDigits n := by rw [← hback m, ← hback n, h]
  rw [← ofDigits_decimalDigits m, ← ofDigits_decimalDigits n, hdigits]

theorem eq_natAbs_of_isCount {q : ℚ} (hcount : isCount (.finite q) = true) :
    q = (q.num.natAbs : ℚ) := by
  have hq : q.den = 1 ∧
    0 ≤ q := by simpa [isCount, JsNumber.isInteger, JsNumber.isAtLeast] using hcount
  have hnum : (q.num.natAbs : ℤ) = q.num := Int.natAbs_of_nonneg (Rat.num_nonneg.mpr hq.2)
  calc q = (q.num : ℚ) := ((Rat.den_eq_one_iff q).mp hq.1).symm
    _ = ((q.num.natAbs : ℤ) : ℚ) := by rw [hnum]
    _ = (q.num.natAbs : ℚ) := Int.cast_natCast _

theorem digitTexts_ne_infinity {n : ℕ} : (decimalDigits n).map digitText ≠ js "Infinity" := by
  intro h
  have hmem : (0x49 : UInt16) ∈ (decimalDigits n).map digitText := by
    rw [h]
    decide
  exact absurd (mem_digitTexts hmem).2 (by decide)

theorem decimalText_injective (m n : JsNumber) (hm : isCount m = true) (hn : isCount n = true)
    (h : decimalText m = decimalText n) :
    m = n := by
  have hinfinity : ∀ isNegative, isCount (.infinity isNegative) = true →
    isNegative = false := by decide
  cases m with
  | nan => cases hm
  | infinity isNegative =>
    obtain rfl := hinfinity isNegative hm
    cases n with
    | nan => cases hn
    | infinity isNegative' => rw [hinfinity isNegative' hn]
    | finite q => exact absurd h.symm digitTexts_ne_infinity
  | finite q =>
    cases n with
    | nan => cases hn
    | infinity isNegative =>
      obtain rfl := hinfinity isNegative hn
      exact absurd h digitTexts_ne_infinity
    | finite q' => rw [eq_natAbs_of_isCount hm, eq_natAbs_of_isCount hn, digitTexts_injective h]

def threeTabs : Wire.TabLimit := ⟨.finite 3, by decide⟩

theorem decimalText_threeTabs : decimalText threeTabs.val = js "3" := by
  show (decimalDigits 3).map digitText = js "3"
  rw [decimalDigits, if_neg (by decide), Nat.digits_of_lt 10 3 (by decide) (by decide)]
  decide

/-- With the numbers in decimal: a place of three among the locks that are named in one way only. -/
theorem name_injective_decimal :
    (LockParts.tabSlot ⟨js "a/b", by decide⟩ threeTabs 2).IsCutOnce ∧
      decimalText threeTabs.val = js "3" ∧
      (∀ x : LockParts, (∀ y, x.name decimalText = y.name decimalText → x = y) ↔ x.IsCutOnce) ∧
      ∀ x y : LockParts, x.IsPlain → y.IsPlain → x.name decimalText = y.name decimalText → x = y :=
  ⟨trivial, decimalText_threeTabs,
    name_injective_iff slash_notMem_decimalText decimalText_injective⟩

/-- The term of one configuration, and what another page may claim to be a term of another. -/
def plainTerm : LockParts :=
  .term ⟨js "a/b", by decide⟩ ⟨js "t", by decide⟩ ⟨js "c", by decide⟩ threeTabs

def forgedTerm : LockParts :=
  .term ⟨js "b", by decide⟩ ⟨js "t", by decide⟩ ⟨js "c/a", by decide⟩ threeTabs

/-- Two term locks of different configurations and senders share their name, however numbers are
written. -/
theorem not_name_injective :
    plainTerm ≠ forgedTerm ∧
    ∀ numberText, plainTerm.name numberText = forgedTerm.name numberText := by
  refine ⟨fun heq => ?_, fun numberText => ?_⟩
  · injection heq with hname
    exact absurd hname (by decide)
  · show lockNamePrefix "term" ++ (numberText threeTabs.val ++ slash :: _) = lockNamePrefix
      "term" ++ (numberText threeTabs.val ++ slash :: _)
    rw [show js "t" ++ slash :: (js "c" ++ slash :: js "a/b") = js "t" ++ slash ::
      (js "c/a" ++ slash :: js "b") by decide]

end LockParts

end SerialBroker
