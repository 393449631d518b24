import SessionRouter.Dns.Name
import SessionRouter.Dns.ReverseName

/-!
# Reverse names and the zones they are in
-/

namespace SessionRouter.Dns

open Lib DomainName Bencode Split

/-! ## Names of addresses -/

def PtrAddress.ending : PtrAddress → Bytes
  | .v4 _ => ascii "in-addr.arpa"
  | .v6 _ _ => ascii "ip6.arpa"

def IsNybbles : Bytes → Bytes → Prop
  | [], text => text = []
  | byte :: bytes, text => ∃ low high rest, text = low :: dot :: high :: dot :: rest ∧
      hexValue low = some (byte % 16) ∧ hexValue high = some (byte / 16) ∧ IsNybbles bytes rest

def SpellsAddress : PtrAddress → Bytes → Prop
  | .v4 addr, text => ∃ a b c d : UInt8, storeBig 4 addr.toNat = [a, b, c, d] ∧
      ∃ a' b' c' d', IsDecimal a' a.toNat ∧ IsDecimal b' b.toNat ∧ IsDecimal c' c.toNat ∧
        IsDecimal d' d.toNat ∧ text = [dot].intercalate [d', c', b', a', []]
  | .v6 hi lo, text => IsNybbles (storeBig 8 hi.toNat ++ storeBig 8 lo.toNat).reverse text

def IsReverseName (name : Bytes) (ip : PtrAddress) : Prop :=
  ∃ text, SpellsAddress ip text ∧ (name = text ++ ip.ending ∨ name = text ++ ip.ending ++ [dot])

theorem findText_eq_none_iff {text name : Bytes} : findText text name = none ↔ ¬text <:+: name := by
  induction name with
  | nil =>
    rw [findText, List.infix_nil]
    split <;> simp_all
  | cons byte rest ih =>
    rw [findText, List.infix_cons_iff, ← List.isPrefixOf_iff_prefix]
    split
    · next h => simp [h]
    · next h => simp [h, ih]

theorem findText_eq_some {text name : Bytes} {pos : Nat} (h : findText text name = some pos) :
    pos ≤ name.length ∧ ∃ rest, name = name.take pos ++ text ++ rest := by
  induction name generalizing pos with
  | nil =>
    rw [findText] at h
    split at h
    · next hnil =>
      cases h
      exact ⟨Nat.le_refl _, [], by simp [hnil]⟩
    · cases h
  | cons byte rest ih =>
    rw [findText] at h
    split at h
    · next hprefix =>
      cases h
      obtain ⟨tail, htail⟩ := List.isPrefixOf_iff_prefix.mp hprefix
      exact ⟨Nat.zero_le _, tail, by simpa using htail.symm⟩
    · obtain ⟨pos, hpos, rfl⟩ := Option.map_eq_some_iff.mp h
      obtain ⟨hle, tail, htail⟩ := ih hpos
      exact ⟨Nat.succ_le_succ hle, tail, by
        rw [List.take_succ_cons, List.cons_append, List.cons_append, ← htail]⟩

theorem findText_append {first second : UInt8} (hne : first ≠ second) (text rest : Bytes)
    {front : Bytes} (hfront : second ∉ front) :
    findText (first :: second :: text) (front ++ first :: second :: (text ++ rest)) =
      some front.length := by
  induction front with
  | nil =>
    have hprefix : (first :: second :: text).isPrefixOf (first :: second :: (text ++ rest)) := by
      simp
    rw [List.nil_append, findText, if_pos hprefix]
    rfl
  | cons byte front ih =>
    rw [List.mem_cons, not_or] at hfront
    have hprefix : (first :: second :: text).isPrefixOf
        (byte :: (front ++ first :: second :: (text ++ rest))) = false := by
      cases front with
      | nil => simp [List.isPrefixOf, hne.symm]
      | cons next front =>
        rw [List.mem_cons, not_or] at hfront
        simp [List.isPrefixOf, hfront.2.1]
    rw [List.cons_append, findText, hprefix, ih hfront.2]
    rfl

theorem parseUInt8_eq_some_iff {text : Bytes} {value : UInt8} :
    parseUInt8 text = some value ↔ IsDecimal text value.toNat :=
  readDecimal_eq_some_iff
    (fun n hle => UInt8.toNat_ofNat_of_lt' (by rw [UInt8.size]; omega))
    (fun value => Nat.le_of_lt_succ value.toNat_lt) fun _ => UInt8.ofNat_toNat

theorem hexValue_spec {char value : UInt8} (h : hexValue char = some value) :
    value < 16 ∧ char ∉ [dot, 45, 105] := by
  have hall : ∀ n < 256, (hexValue (UInt8.ofNat n)).all (fun value =>
      value < 16 ∧ UInt8.ofNat n ∉ [dot, 45, 105]) = true := by decide +kernel
  have hchar := hall char.toNat char.toNat_lt
  rw [UInt8.ofNat_toNat, h] at hchar
  simpa using hchar

theorem nybbles_byte {low high : UInt8} (hlow : low < 16) (hhigh : high < 16) :
    (high * 16 + low) % 16 = low ∧ (high * 16 + low) / 16 = high := by
  have hall : ∀ low < 16, ∀ high < 16,
      (UInt8.ofNat high * 16 + UInt8.ofNat low) % 16 = UInt8.ofNat low ∧
        (UInt8.ofNat high * 16 + UInt8.ofNat low) / 16 = UInt8.ofNat high := by decide +kernel
  have hbyte := hall low.toNat hlow high.toNat hhigh
  rwa [UInt8.ofNat_toNat, UInt8.ofNat_toNat] at hbyte

theorem byte_nybbles (byte : UInt8) : byte / 16 * 16 + byte % 16 = byte := by
  have hall : ∀ n < 256, UInt8.ofNat n / 16 * 16 + UInt8.ofNat n % 16 = UInt8.ofNat n := by
    decide +kernel
  have hbyte := hall byte.toNat byte.toNat_lt
  rwa [UInt8.ofNat_toNat] at hbyte

theorem decodeNybbles_eq_some_iff {count : Nat} {text bytes : Bytes}
    (hlength : text.length = 4 * count) :
    decodeNybbles count text = some bytes ↔ bytes.length = count ∧ IsNybbles bytes text := by
  induction count generalizing text bytes with
  | zero =>
    obtain rfl := List.length_eq_zero_iff.mp hlength
    cases bytes <;> simp [decodeNybbles, IsNybbles]
  | succ count ih =>
    match text, hlength with
    | low :: dotLow :: high :: dotHigh :: rest, hlength =>
      have hrest : rest.length = 4 * count := by
        simp only [List.length_cons] at hlength
        omega
      rw [decodeNybbles]
      constructor
      · intro h
        split at h
        case isFalse => cases h
        next hdots =>
        simp only [Option.bind_eq_bind, Option.bind_eq_some_iff] at h
        obtain ⟨low', hlow, high', hhigh, tail, htail, h⟩ := h
        cases h
        obtain ⟨hcount, hnybbles⟩ := (ih hrest).mp htail
        obtain ⟨hmod, hdiv⟩ := nybbles_byte (hexValue_spec hlow).1 (hexValue_spec hhigh).1
        refine ⟨by simp [hcount], low, high, rest, ?_, ?_, ?_, hnybbles⟩
        · rw [hdots.1, hdots.2]
        · rw [hmod, hlow]
        · rw [hdiv, hhigh]
      · rintro ⟨hcount, h⟩
        cases bytes with
        | nil => cases h
        | cons byte bytes =>
          obtain ⟨low, high, rest, heq, hlow, hhigh, hnybbles⟩ := h
          cases heq
          rw [if_pos ⟨rfl, rfl⟩, hlow, hhigh, (ih hrest).mpr ⟨by simpa using hcount, hnybbles⟩]
          simp [byte_nybbles]

theorem IsNybbles.spec {bytes text : Bytes} (h : IsNybbles bytes text) :
    text.length = 4 * bytes.length ∧ text.count dot = 2 * bytes.length ∧ 45 ∉ text ∧
      105 ∉ text ∧ (bytes ≠ [] → ∃ front, text = front ++ [dot]) := by
  induction bytes generalizing text with
  | nil =>
    obtain rfl : text = [] := h
    simp
  | cons byte bytes ih =>
    obtain ⟨low, high, rest, rfl, hlow, hhigh, hnybbles⟩ := h
    obtain ⟨hlength, hcount, hdash, hi, hlast⟩ := ih hnybbles
    have hlow := (hexValue_spec hlow).2
    have hhigh := (hexValue_spec hhigh).2
    simp only [List.mem_cons, List.not_mem_nil, or_false, not_or] at hlow hhigh
    refine ⟨?_, ?_, ?_, ?_, fun _ => ?_⟩
    · simp only [List.length_cons, hlength]
      omega
    · simp [hcount, hlow.1, hhigh.1]
      omega
    · simp [hdash, Ne.symm hlow.2.1, Ne.symm hhigh.2.1]
      decide
    · simp [hi, Ne.symm hlow.2.2, Ne.symm hhigh.2.2]
      decide
    · cases bytes with
      | nil =>
        obtain rfl : rest = [] := hnybbles
        exact ⟨[low, dot, high], rfl⟩
      | cons next bytes =>
        obtain ⟨front, rfl⟩ := hlast (by simp)
        exact ⟨low :: dot :: high :: dot :: front, rfl⟩

theorem SpellsAddress.spec {ip : PtrAddress} {text : Bytes} (h : SpellsAddress ip text) :
    105 ∉ text ∧ 45 ∉ text ∧ ∃ front, text = front ++ [dot] := by
  cases ip with
  | v4 addr =>
    obtain ⟨a, b, c, d, -, a', b', c', d', ha, hb, hc, hd, rfl⟩ := h
    have hdigit {text : Bytes} {value : Nat} (h : IsDecimal text value) : 105 ∉ text ∧ 45 ∉ text :=
      ⟨fun hmem => absurd (h.digits _ hmem).2 (by decide),
        fun hmem => absurd (h.digits _ hmem).1 (by decide)⟩
    refine ⟨?_, ?_, d' ++ dot :: (c' ++ dot :: (b' ++ dot :: a')), by simp [List.intercalate]⟩
    · simp [List.intercalate, (hdigit ha).1, (hdigit hb).1, (hdigit hc).1, (hdigit hd).1, dot]
    · simp [List.intercalate, (hdigit ha).2, (hdigit hb).2, (hdigit hc).2, (hdigit hd).2, dot]
  | v6 hi lo =>
    obtain ⟨-, -, hdash, hi, hlast⟩ := IsNybbles.spec h
    exact ⟨hi, hdash, hlast (by simp [← List.length_eq_zero_iff])⟩

theorem eq_of_append_cons {char : UInt8} {front front' back back' : Bytes} (h : char ∉ front)
    (h' : char ∉ front') (heq : front ++ char :: back = front' ++ char :: back') :
    back = back' := by
  rcases List.append_eq_append_iff.mp heq with ⟨between, rfl, hback⟩ | ⟨between, rfl, hback⟩ <;>
    cases between <;> simp_all

theorem take_of_findText {ending name : Bytes} {pos : Nat}
    (h : findText (dot :: ending) name = some pos) :
    name.take (pos + 1) = name.take pos ++ [dot] ∧
      ∃ rest, name = name.take (pos + 1) ++ ending ++ rest := by
  obtain ⟨hle, rest, hname⟩ := findText_eq_some h
  have htake : name.take (pos + 1) = name.take pos ++ [dot] := by
    have hlength : (name.take pos).length = pos := by simpa using hle
    conv_lhs => rw [hname, List.append_assoc]
    rw [List.take_append, hlength]
    simp [List.take_of_length_le, hlength]
  exact ⟨htake, rest, by rw [htake]; simpa using hname⟩

theorem PtrAddress.ending_eq (ip : PtrAddress) : ∃ tail, ip.ending = 105 :: tail := by
  cases ip
  · exact ⟨_, (by decide +kernel : ascii "in-addr.arpa" = 105 :: ascii "n-addr.arpa")⟩
  · exact ⟨_, (by decide +kernel : ascii "ip6.arpa" = 105 :: ascii "p6.arpa")⟩

theorem SpellsAddress.findText {ip : PtrAddress} {text : Bytes} (h : SpellsAddress ip text)
    (rest : Bytes) :
    ∃ front, text = front ++ [dot] ∧
      Dns.findText (dot :: ip.ending) (text ++ ip.ending ++ rest) = some front.length ∧
      (text ++ ip.ending ++ rest).take (front.length + 1) = text := by
  obtain ⟨hi, -, front, rfl⟩ := h.spec
  obtain ⟨tail, hending⟩ := ip.ending_eq
  refine ⟨front, rfl, ?_, ?_⟩
  · rw [hending]
    simpa using findText_append (by decide : dot ≠ 105) tail rest
      fun hmem => hi (List.mem_append_left [dot] hmem)
  · rw [List.append_assoc, List.take_left' (by simp)]

theorem decodePtr_eq_some_iff {name : Bytes} {ip : PtrAddress} :
    decodePtr name = some ip ↔
      ∃ text rest, SpellsAddress ip text ∧ name = text ++ ip.ending ++ rest ∧
        (∀ hi lo, ip = .v6 hi lo → ¬ascii ".in-addr.arpa" <:+: name) := by
  have hv4 : ascii ".in-addr.arpa" = dot :: ascii "in-addr.arpa" := by decide +kernel
  have hv6 : ascii ".ip6.arpa" = dot :: ascii "ip6.arpa" := by decide +kernel
  constructor
  · intro h
    unfold decodePtr at h
    cases hfind : findText (ascii ".in-addr.arpa") name with
    | some pos =>
      rw [hfind] at h
      obtain ⟨htake, rest, hname⟩ := take_of_findText (hv4 ▸ hfind)
      simp only [Option.bind_eq_bind, Option.bind_some] at h
      split at h
      · split at h
        case h_2 => cases h
        next d' c' b' a' last hsplit =>
        simp only [Option.bind_eq_some_iff] at h
        obtain ⟨d, hd, c, hc, b, hb, a, ha, h⟩ := h
        cases h
        have hload : storeBig 4 (UInt32.ofNat (loadBig [a, b, c, d])).toNat = [a, b, c, d] := by
          have hlt := loadBig_lt [a, b, c, d]
          rw [UInt32.toNat_ofNat_of_lt' (by simpa [UInt32.size] using hlt)]
          exact storeBig_loadBig [a, b, c, d]
        have hlast : last = [] := by
          rw [htake, List.splitOn_append_cons_self] at hsplit
          have hlast := congrArg List.getLast? hsplit
          simpa using hlast.symm
        rw [hlast] at hsplit
        exact ⟨_, rest, ⟨a, b, c, d, hload, a', b', c', d', parseUInt8_eq_some_iff.mp ha,
          parseUInt8_eq_some_iff.mp hb, parseUInt8_eq_some_iff.mp hc, parseUInt8_eq_some_iff.mp hd,
          (splitOn_eq_iff.mp hsplit).2.2⟩, hname, fun _ _ hip => by cases hip⟩
      · rw [if_neg (by simp)] at h
        cases h
    | none =>
      rw [hfind] at h
      cases hfind6 : findText (ascii ".ip6.arpa") name with
      | none =>
        rw [hfind6] at h
        cases h
      | some pos =>
        rw [hfind6] at h
        obtain ⟨-, rest, hname⟩ := take_of_findText (hv6 ▸ hfind6)
        simp only [Option.map_some, Option.bind_eq_bind, Option.bind_some] at h
        rw [if_neg (by simp)] at h
        split at h
        case isFalse => cases h
        next hshape =>
        obtain ⟨bytes, hbytes, h⟩ := Option.bind_eq_some_iff.mp h
        cases h
        obtain ⟨hcount, hnybbles⟩ := (@decodeNybbles_eq_some_iff 16 _ _ hshape.2.1).mp hbytes
        have hload (part : Bytes) (hpart : part.length = 8) :
            storeBig 8 (UInt64.ofNat (loadBig part.reverse)).toNat = part.reverse := by
          have hlt := loadBig_lt part.reverse
          rw [List.length_reverse, hpart] at hlt
          rw [UInt64.toNat_ofNat_of_lt' hlt, ← storeBig_loadBig part.reverse, List.length_reverse,
            hpart, loadBig_storeBig hlt]
        refine ⟨_, rest, ?_, hname, fun _ _ _ => findText_eq_none_iff.mp hfind⟩
        rw [SpellsAddress, hload _ (by simp [hcount]), hload _ (by simp [hcount]),
          ← List.reverse_append, List.take_append_drop, List.reverse_reverse]
        exact hnybbles
  · rintro ⟨text, rest, hspells, rfl, hnone⟩
    obtain ⟨front, hfront, hfind, htake⟩ := hspells.findText rest
    cases ip with
    | v4 addr =>
      obtain ⟨a, b, c, d, haddr, a', b', c', d', ha, hb, hc, hd, htext⟩ := hspells
      have hdot {text : Bytes} {value : Nat} (h : IsDecimal text value) : dot ∉ text :=
        fun hmem => absurd (h.digits _ hmem).1 (by decide)
      have hsplit : text.splitOn dot = [d', c', b', a', []] :=
        splitOn_eq_iff.mpr ⟨by simp, by simp [hdot ha, hdot hb, hdot hc, hdot hd], htext⟩
      have hcount : text.count dot = 4 := by
        rw [htext]
        simp [List.intercalate, List.count_eq_zero.mpr, hdot ha, hdot hb, hdot hc, hdot hd]
      have hload : UInt32.ofNat (loadBig [a, b, c, d]) = addr := by
        rw [← haddr, loadBig_storeBig addr.toNat_lt, UInt32.ofNat_toNat]
      unfold decodePtr
      rw [hv4]
      simp only [PtrAddress.ending] at hfind htake ⊢
      rw [hfind]
      simp only [Option.bind_eq_bind, Option.bind_some, htake]
      simp [hcount, hsplit, parseUInt8_eq_some_iff.mpr ha, parseUInt8_eq_some_iff.mpr hb,
        parseUInt8_eq_some_iff.mpr hc, parseUInt8_eq_some_iff.mpr hd, hload]
    | v6 hi lo =>
      obtain ⟨hlength, hcount, -, -, -⟩ := IsNybbles.spec hspells
      have hbytes : (storeBig 8 hi.toNat ++ storeBig 8 lo.toNat).reverse.length = 16 := by simp
      rw [hbytes] at hlength hcount
      have hdecode := (decodeNybbles_eq_some_iff hlength).mpr ⟨hbytes, hspells⟩
      have hhi : loadBig (storeBig 8 hi.toNat) = hi.toNat := loadBig_storeBig hi.toNat_lt
      have hlo : loadBig (storeBig 8 lo.toNat) = lo.toNat := loadBig_storeBig lo.toNat_lt
      unfold decodePtr
      rw [findText_eq_none_iff.mpr (hnone hi lo rfl), hv6]
      simp only [PtrAddress.ending] at hfind htake ⊢
      rw [hfind]
      simp only [Option.map_some, Option.bind_eq_bind, Option.bind_some, htake, hcount, hlength]
      rw [if_neg (by simp), if_pos ⟨trivial, trivial, trivial⟩, hdecode, List.reverse_append,
        Option.bind_some, List.drop_left' (by simp), List.take_left' (by simp)]
      simp [hhi, hlo]

/-- A name is decoded as documented exactly if nothing but a dot follows the first domain behind
an address.  (With an IPv6 address, the other domain later in the name makes it be refused.) -/
theorem decodePtr_iff (name : Bytes) :
    (∀ ip, decodePtr name = some ip ↔ IsReverseName name ip) ↔
      ∀ ip text rest, SpellsAddress ip text → name = text ++ ip.ending ++ rest →
        rest = [] ∨ rest = [dot] ∨
          ∃ hi lo, ip = .v6 hi lo ∧ ascii ".in-addr.arpa" <:+: name := by
  constructor
  · intro h ip text rest hspells hname
    by_cases hother : ∃ hi lo, ip = .v6 hi lo ∧ ascii ".in-addr.arpa" <:+: name
    · exact .inr (.inr hother)
    · obtain ⟨text', hspells', hname'⟩ := (h ip).mp (decodePtr_eq_some_iff.mpr
        ⟨text, rest, hspells, hname, fun hi lo hip hin => hother ⟨hi, lo, hip, hin⟩⟩)
      obtain ⟨tail, hending⟩ := ip.ending_eq
      -- both spellings end before the first `i` of the name
      have hrest (rest' : Bytes) (heq : name = text' ++ ip.ending ++ rest') : rest = rest' := by
        rw [hname, hending, List.append_assoc, List.append_assoc, List.cons_append,
          List.cons_append] at heq
        exact List.append_cancel_left (eq_of_append_cons hspells.spec.1 hspells'.spec.1 heq)
      rcases hname' with hname' | hname'
      · exact .inl (hrest [] (by rw [List.append_nil, hname']))
      · exact .inr (.inl (hrest [dot] hname'))
  · intro h ip
    rw [decodePtr_eq_some_iff]
    constructor
    · rintro ⟨text, rest, hspells, hname, hnone⟩
      refine ⟨text, hspells, ?_⟩
      rcases h ip text rest hspells hname with rfl | rfl | ⟨hi, lo, hip, hin⟩
      · exact .inl (by rw [hname, List.append_nil])
      · exact .inr hname
      · exact absurd hin (hnone hi lo hip)
    · rintro ⟨text, hspells, hname⟩
      have hdash (hi lo : UInt64) (hip : ip = .v6 hi lo) : 45 ∉ name := by
        have htext := hspells.spec.2.1
        have hending : 45 ∉ ascii "ip6.arpa" := by decide +kernel
        subst hip
        rcases hname with rfl | rfl <;> simp [htext, hending, PtrAddress.ending, dot]
      have hnone (hi lo : UInt64) (hip : ip = .v6 hi lo) : ¬ascii ".in-addr.arpa" <:+: name :=
        fun hin => hdash hi lo hip (hin.subset (by decide +kernel : 45 ∈ ascii ".in-addr.arpa"))
      rcases hname with rfl | rfl
      · exact ⟨text, [], hspells, by simp, hnone⟩
      · exact ⟨text, [dot], hspells, rfl, hnone⟩

theorem decodePtr_foreignDomain :
    decodePtr (ascii "1.0.0.127.in-addr.arpa.example.com") = some (.v4 0x7f000001) ∧
      ¬IsReverseName (ascii "1.0.0.127.in-addr.arpa.example.com") (.v4 0x7f000001) := by
  refine ⟨by decide +kernel, ?_⟩
  have hends (front ending : Bytes) (h : ascii "1.0.0.127.in-addr.arpa.example.com" =
      front ++ ending) (hne : ending ≠ []) : ending.getLast? = some 109 := by
    rw [← List.getLast?_append_of_ne_nil front hne, ← h]
    decide +kernel
  rintro ⟨text, -, hname | hname⟩
  · exact absurd (hends _ (ascii "in-addr.arpa") hname (by decide +kernel)) (by decide +kernel)
  · exact absurd (hends _ [dot] hname (by decide)) (by decide)

/-! ## The zone of a negative answer -/

def hexDigits (addr : Nat) : Bytes :=
  (List.range 32).map fun i => (ascii "0123456789abcdef").getD (addr / 2 ^ (4 * (31 - i)) % 16) 0

def PtrAddress.labels : PtrAddress → List Bytes
  | .v4 addr =>
    (storeBig 4 addr.toNat).reverse.map (fun byte => decimal byte.toNat) ++
      [ascii "in-addr", ascii "arpa"]
  | .v6 hi lo =>
    (hexDigits (hi.toNat * 2 ^ 64 + lo.toNat)).reverse.map ([·]) ++ [ascii "ip6", ascii "arpa"]

def InNetwork (mask4 mask6 : UInt8) : PtrAddress → PtrAddress → Prop
  | .v4 addr, .v4 other =>
    addr.toNat / 2 ^ (32 - mask4.toNat) = other.toNat / 2 ^ (32 - mask4.toNat)
  | .v6 hi lo, .v6 hi' lo' =>
    (hi.toNat * 2 ^ 64 + lo.toNat) / 2 ^ (128 - mask6.toNat) =
      (hi'.toNat * 2 ^ 64 + lo'.toNat) / 2 ^ (128 - mask6.toNat)
  | _, _ => False

structure ZoneOk (mask4 mask6 : UInt8) (ip : PtrAddress) (zone : List Bytes) : Prop where
  nonempty : [] ∉ zone
  ends : zone <:+ ip.labels
  covers : ∀ other, zone <:+ PtrAddress.labels other → InNetwork mask4 mask6 ip other

theorem exists_networkBytes (count soaAddr : Nat) :
    ∃ front, networkBytes (count + 1) soaAddr = front ++ [dot] := by
  induction count generalizing soaAddr with
  | zero => exact ⟨decimal (soaAddr % 256), rfl⟩
  | succ count ih =>
    obtain ⟨front, hfront⟩ := ih (soaAddr / 256)
    exact ⟨decimal (soaAddr % 256) ++ dot :: front, by rw [networkBytes, hfront]; simp⟩

theorem nil_mem_zone (mask4 mask6 : UInt8) (addr : UInt32) :
    [] ∈ (authName mask4 mask6 (.v4 addr)).splitOn dot := by
  have hcount : ∃ count, (min 32 (max 1 mask4.toNat) + 7) / 8 * 8 / 8 = count + 1 :=
    Nat.exists_eq_succ_of_ne_zero (by omega)
  obtain ⟨count, hcount⟩ := hcount
  have hending : ascii ".in-addr.arpa" = dot :: ascii "in-addr.arpa" := by decide +kernel
  obtain ⟨front, hfront⟩ := exists_networkBytes count
    (addr.toNat / 2 ^ (32 - (min 32 (max 1 mask4.toNat) + 7) / 8 * 8))
  rw [authName]
  rw [hcount, hfront, hending, List.append_assoc, List.singleton_append,
    List.splitOn_append_cons_self, ← List.nil_append (dot :: ascii "in-addr.arpa"),
    List.splitOn_append_cons_self]
  simp

theorem splitOn_dotted {labels : List Bytes} (hne : labels ≠ [])
    (h : ∀ label ∈ labels, dot ∉ label) : (dotted labels).splitOn dot = labels := by
  induction labels with
  | nil => exact absurd rfl hne
  | cons label labels ih =>
    obtain ⟨hlabel, hlabels⟩ := List.forall_mem_cons.mp h
    cases labels with
    | nil => exact Split.splitOn_of_notMem hlabel
    | cons next labels =>
      rw [dotted, List.splitOn_append_cons_self, Split.splitOn_of_notMem hlabel,
        ih (by simp) hlabels]
      rfl

theorem hexDigit_spec : ∀ value < 16,
    (ascii "0123456789abcdef").getD value 0 ≠ dot ∧ ∀ other < 16,
      (ascii "0123456789abcdef").getD value 0 = (ascii "0123456789abcdef").getD other 0 →
        value = other := by
  decide +kernel

theorem dot_notMem_hexDigits (addr : Nat) : dot ∉ hexDigits addr := by
  simp only [hexDigits, List.mem_map, List.mem_range, not_exists, not_and]
  intro i _ heq
  exact (hexDigit_spec _ (Nat.mod_lt _ (by decide))).1 heq

def zoneDigits (mask6 : UInt8) : Nat := (min 128 (max 1 mask6.toNat) + 3) / 4

theorem splitOn_authName (mask4 mask6 : UInt8) (hi lo : UInt64) :
    (authName mask4 mask6 (.v6 hi lo)).splitOn dot =
      ((hexDigits (hi.toNat * 2 ^ 64 + lo.toNat)).take (zoneDigits mask6)).reverse.map ([·]) ++
        [ascii "ip6", ascii "arpa"] := by
  have hending : ascii ".ip6.arpa" = dot :: dotted [ascii "ip6", ascii "arpa"] := by decide +kernel
  have hdigits : (min 128 (max 1 mask6.toNat) + 3) / 4 * 4 / 4 = zoneDigits mask6 := by
    unfold zoneDigits
    omega
  have hne : ((hexDigits (hi.toNat * 2 ^ 64 + lo.toNat)).take
      (zoneDigits mask6)).reverse.map ([·]) ≠ [] := by
    have hpos : zoneDigits mask6 ≠ 0 := by
      unfold zoneDigits
      omega
    simp [hexDigits, hpos]
  rw [authName]
  rw [hdigits, ← hexDigits, hending, ← dotted_append hne (by simp), splitOn_dotted (by simp)]
  simp only [List.forall_mem_append, List.forall_mem_map, List.mem_reverse]
  refine ⟨fun char hmem => ?_, by decide +kernel⟩
  rw [List.mem_singleton]
  rintro rfl
  exact dot_notMem_hexDigits _ (List.mem_of_mem_take hmem)

theorem div_eq_of_take_eq {addr other count : Nat} (hcount : count ≤ 32) (haddr : addr < 2 ^ 128)
    (hother : other < 2 ^ 128) (h : (hexDigits addr).take count = (hexDigits other).take count) :
    addr / 2 ^ (128 - 4 * count) = other / 2 ^ (128 - 4 * count) := by
  induction count with
  | zero => rw [Nat.div_eq_of_lt haddr, Nat.div_eq_of_lt hother]
  | succ count ih =>
    have htake : (hexDigits addr).take count = (hexDigits other).take count := by
      have := congrArg (List.take count) h
      simpa [List.take_take] using this
    have hdigit : addr / 2 ^ (4 * (31 - count)) % 16 = other / 2 ^ (4 * (31 - count)) % 16 := by
      have hget := congrArg (·[count]?) h
      simp [hexDigits, (by omega : count < 32)] at hget
      exact (hexDigit_spec _ (Nat.mod_lt _ (by decide))).2 _ (Nat.mod_lt _ (by decide)) hget
    have hquot := ih (by omega) htake
    have hpow : 128 - 4 * (count + 1) + 4 = 128 - 4 * count := by omega
    rw [← hpow, Nat.pow_add, ← Nat.div_div_eq_div_mul, ← Nat.div_div_eq_div_mul] at hquot
    rw [show 4 * (31 - count) = 128 - 4 * (count + 1) by omega] at hdigit
    omega

/-- The zone is right exactly for IPv6 addresses. -/
theorem zone_ok_iff (mask4 mask6 : UInt8) (ip : PtrAddress) :
    ZoneOk mask4 mask6 ip ((authName mask4 mask6 ip).splitOn dot) ↔ ∃ hi lo, ip = .v6 hi lo := by
  constructor
  · intro h
    cases ip with
    | v4 addr => exact absurd (nil_mem_zone mask4 mask6 addr) h.nonempty
    | v6 hi lo => exact ⟨hi, lo, rfl⟩
  · rintro ⟨hi, lo, rfl⟩
    rw [splitOn_authName]
    refine ⟨?_, ?_, fun other hother => ?_⟩
    · have hending : [] ∉ [ascii "ip6", ascii "arpa"] := by decide +kernel
      rw [List.mem_append, not_or]
      exact ⟨by simp only [List.mem_map, List.cons_ne_nil, and_false, exists_false, not_false_iff],
        hending⟩
    · rw [PtrAddress.labels, List.suffix_append_self_iff]
      exact ((List.reverse_suffix.mpr (List.take_prefix _ _)).map _)
    · cases other with
      | v4 addr =>
        obtain ⟨front, hfront⟩ := hother
        rw [PtrAddress.labels, ← List.append_assoc] at hfront
        have := (List.append_inj' hfront rfl).2
        exact absurd this (by decide +kernel)
      | v6 hi' lo' =>
        rw [PtrAddress.labels, List.suffix_append_self_iff, List.suffix_iff_eq_drop] at hother
        have hdigits : zoneDigits mask6 ≤ 32 ∧ min 128 mask6.toNat ≤ 4 * zoneDigits mask6 := by
          unfold zoneDigits
          omega
        have hlength (addr : Nat) : (hexDigits addr).length = 32 := by simp [hexDigits]
        have htake : (hexDigits (hi.toNat * 2 ^ 64 + lo.toNat)).take (zoneDigits mask6) =
            (hexDigits (hi'.toNat * 2 ^ 64 + lo'.toNat)).take (zoneDigits mask6) := by
          have hinj : Function.Injective fun char : UInt8 => [char] := fun _ _ h => by simpa using h
          rw [← List.map_drop, (List.map_injective_iff.mpr hinj).eq_iff] at hother
          simp only [List.length_map, List.length_reverse, List.length_take, hlength,
            List.drop_reverse, List.reverse_inj] at hother
          rw [hother]
          congr 1
          omega
        have hlt (hi lo : UInt64) : hi.toNat * 2 ^ 64 + lo.toNat < 2 ^ 128 := by
          have := hi.toNat_lt
          have := lo.toNat_lt
          omega
        have hquot := div_eq_of_take_eq hdigits.1 (hlt hi lo) (hlt hi' lo') htake
        have hpow : 2 ^ (128 - mask6.toNat) = 2 ^ (128 - 4 * zoneDigits mask6) *
            2 ^ (128 - mask6.toNat - (128 - 4 * zoneDigits mask6)) := by
          rw [← Nat.pow_add]
          congr 1
          omega
        change _ / 2 ^ (128 - mask6.toNat) = _ / 2 ^ (128 - mask6.toNat)
        rw [hpow, ← Nat.div_div_eq_div_mul, ← Nat.div_div_eq_div_mul, hquot]

theorem authName_emptyLabel : authName 8 64 (.v4 0x0a000001) = ascii "10..in-addr.arpa" := by
  decide +kernel

end SessionRouter.Dns
