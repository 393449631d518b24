import SessionRouter.Dns.Answer

/-!
# Cookies
-/

namespace SessionRouter.Dns

open Lib DomainName

structure EdnsOption where
  code : UInt16
  data : Bytes
  short : data.length < 256 ^ 2

def EdnsOption.bytes (opt : EdnsOption) : Bytes :=
  storeBig 2 opt.code.toNat ++ storeBig 2 opt.data.length ++ opt.data

def findOpt : Nat → Bytes → Option (UInt16 × Nat × Bytes)
  | 0, _ => none
  | count + 1, buf =>
    match ParsedRR.extract buf with
    | none => none
    | some (record, rest) =>
      if record.name ≠ [dot] ∨ record.rrType ≠ RRType.OPT.toNat then findOpt count rest
      else some (UInt16.ofNat (min record.rrClass 1232), record.ttl, record.rdata)

def optOf (request : Bytes) : Option (UInt16 × Nat × Bytes) :=
  if 1 < qdCount request then none
  else
    ((parseQuestion request).2.bind fun rest =>
      (skipRecords (anCount request) rest).bind (skipRecords (nsCount request))).bind
        (findOpt (arCount request))

def ednsOf (ctx : RequestContext) (opt : UInt16 × Nat × Bytes) : PRREdns :=
  (parseOptions ctx opt.2.2.length (PRREdns.make opt.1 opt.2.1) opt.2.2).1

variable {ctx : RequestContext}

theorem parseAdditional_some (count : Nat) (edns : PRREdns) (buf : Bytes) :
    (parseAdditional ctx count (some edns) buf).1 = some edns := by
  induction count generalizing buf with
  | zero => rfl
  | succ count ih =>
    unfold parseAdditional
    split
    · rfl
    · split
      · exact ih _
      · rfl

theorem parseAdditional_none (count : Nat) (buf : Bytes) :
    (parseAdditional ctx count none buf).1 = (findOpt count buf).map (ednsOf ctx) := by
  induction count generalizing buf with
  | zero => rfl
  | succ count ih =>
    unfold parseAdditional findOpt
    cases hrecord : ParsedRR.extract buf with
    | none => rfl
    | some found =>
      obtain ⟨record, rest⟩ := found
      dsimp only
      split
      · exact ih rest
      · rw [if_neg (by simp)]
        split
        · next made hparse => rw [parseAdditional_some, Option.map_some, ednsOf, hparse]
        · next made hparse => rw [Option.map_some, ednsOf, hparse]

theorem additionalEdns_of_extractQuestion {request : Bytes} {m : Message}
    (h : extractQuestion ctx request = some m) :
    m.additionalEdns = (optOf request).map (ednsOf ctx) := by
  unfold extractQuestion at h
  split at h
  · cases h
  dsimp only at h
  unfold optOf
  split at h
  · next hmany =>
    cases h
    rw [(Message.sameRequest_formerr _).additionalEdns, if_pos hmany]
    rfl
  · next hmany =>
    rw [if_neg hmany]
    have hrecords (rest : Bytes) : (parseRecords ctx request rest).1 =
        (((skipRecords (anCount request) rest).bind (skipRecords (nsCount request))).bind
          (findOpt (arCount request))).map (ednsOf ctx) := by
      unfold parseRecords
      split
      · next hskip => rw [hskip]; rfl
      · next hskip => rw [hskip, parseAdditional_none]; rfl
    split at h
    · next hquestion =>
      cases h
      rw [(Message.sameRequest_formerr _).additionalEdns, hquestion]
      rfl
    · next rest hquestion =>
      rw [hquestion]
      have hrecords := hrecords rest
      split at h
      · next hparse =>
        cases h
        rw [hparse] at hrecords
        exact hrecords
      · next hparse =>
        cases h
        rw [hparse] at hrecords
        rw [(Message.sameRequest_formerr _).additionalEdns]
        exact hrecords

def clientPart (value : FixedBytes 24) : FixedBytes 8 := FixedBytes.ofBytes 8 value.data

def timestamp (value : FixedBytes 24) : Int := loadAt value.data 12 4

def Own (ctx : RequestContext) (value : FixedBytes 24) : Prop :=
  value = makeServerCookie ctx (clientPart value) (timestamp value)

theorem own_makeServerCookie (clientCookie : FixedBytes 8) {ts : Int} (hts : 0 ≤ ts ∧ ts < 2 ^ 32) :
    clientPart (makeServerCookie ctx clientCookie ts) = clientCookie ∧
      timestamp (makeServerCookie ctx clientCookie ts) = ts := by
  constructor
  · simp [clientPart, makeServerCookie]
  · have hdata : (makeServerCookie ctx clientCookie ts).data.drop 12 = storeBig 4 (ttlWord ts) ++
        (ctx.shorthash (clientCookie.data ++ ([1, 0, 0, 0] ++ storeBig 4 (ttlWord ts)) ++
          ctx.clientIp)).data := by
      change (clientCookie.data ++ ([1, 0, 0, 0] ++ storeBig 4 (ttlWord ts)) ++ _).drop (8 + 4) = _
      rw [List.append_assoc, ← List.drop_drop, FixedBytes.drop_data_append]
      rfl
    have hword : ttlWord ts < 256 ^ 4 ∧ (ttlWord ts : Int) = ts := by
      unfold ttlWord
      omega
    rw [timestamp, loadAt, hdata, List.take_left' (length_storeBig 4 _), loadBig_storeBig hword.1,
      hword.2]

theorem reserved_of_own {value : FixedBytes 24} (h : Own ctx value) :
    (value.data.drop 8).take 4 = [1, 0, 0, 0] := by
  rw [h]
  simp [makeServerCookie, List.take_append]

def Issued (ctx : RequestContext) (value : FixedBytes 24) : Prop :=
  Own ctx value ∧ timestamp value ≤ ctx.now + 5 * 60

theorem issued_fresh (hnow : 0 ≤ ctx.now ∧ ctx.now < 2 ^ 32) (clientCookie : FixedBytes 8) :
    Issued ctx (makeServerCookie ctx clientCookie ctx.now) := by
  obtain ⟨hclient, hts⟩ := @own_makeServerCookie ctx clientCookie _ hnow
  refine ⟨?_, by omega⟩
  rw [Own, hclient, hts]

theorem checkCookie_spec (edns : PRREdns) (hedns : edns.badCookie = false) (value : FixedBytes 24) :
    (Own ctx value ∧ ctx.now - 30 * 60 ≤ timestamp value ∧
        timestamp value ≤ ctx.now + 5 * 60 →
      (checkCookie ctx edns value).cookie = some value ∧
        (checkCookie ctx edns value).badCookie = false) ∧
    (Own ctx value ∧ ctx.now - 60 * 60 ≤ timestamp value ∧
        timestamp value < ctx.now - 30 * 60 →
      (checkCookie ctx edns value).cookie =
          some (makeServerCookie ctx (clientPart value) ctx.now) ∧
        (checkCookie ctx edns value).badCookie = false) ∧
    (¬Own ctx value ∨ timestamp value < ctx.now - 60 * 60 ∨
        ctx.now + 5 * 60 < timestamp value →
      (checkCookie ctx edns value).cookie =
          some (makeServerCookie ctx (clientPart value) ctx.now) ∧
        (checkCookie ctx edns value).badCookie = true) := by
  unfold checkCookie
  rw [← clientPart, ← timestamp]
  refine ⟨?_, ?_, ?_⟩
  · rintro ⟨hown, hold, hnew⟩
    rw [if_pos ⟨by simpa [Own] using hown, hold, hnew⟩]
    exact ⟨rfl, hedns⟩
  · rintro ⟨hown, hold, hnew⟩
    rw [if_neg (by omega), if_neg]
    · exact ⟨rfl, hedns⟩
    rintro (hbad | hbad | hbad)
    · exact of_decide_eq_true hbad hown
    · omega
    · omega
  · intro hbad
    rw [if_neg, if_pos]
    · exact ⟨rfl, rfl⟩
    · simpa [Own] using hbad
    · rintro ⟨hgood, hold, hnew⟩
      have hown : Own ctx value := by simpa [Own] using hgood
      rcases hbad with hbad | hbad | hbad
      · exact hbad hown
      · omega
      · omega

theorem issued_checkCookie (hnow : 0 ≤ ctx.now ∧ ctx.now < 2 ^ 32) (edns : PRREdns)
    (value cookie : FixedBytes 24) (h : (checkCookie ctx edns value).cookie = some cookie) :
    Issued ctx cookie := by
  unfold checkCookie at h
  dsimp only at h
  split at h
  · next hkept =>
    cases h
    exact ⟨by simpa [Own, clientPart, timestamp] using hkept.1, hkept.2.2⟩
  · split at h <;> cases h <;> exact issued_fresh hnow _

theorem issued_takeCookie (hnow : 0 ≤ ctx.now ∧ ctx.now < 2 ^ 32) {edns : PRREdns}
    (hedns : edns.cookie = none) (value : Bytes) (cookie : FixedBytes 24)
    (h : (takeCookie ctx edns value).cookie = some cookie) : Issued ctx cookie := by
  unfold takeCookie at h
  split at h
  · exact issued_checkCookie hnow edns _ cookie h
  · split at h
    · cases h
      exact issued_fresh hnow _
    · rw [hedns] at h
      cases h

theorem parseOptions_of_cookie (fuel : Nat) {edns : PRREdns} (h : edns.cookie.isSome = true)
    (optbuf : Bytes) : (parseOptions ctx fuel edns optbuf).1 = edns := by
  induction fuel generalizing optbuf with
  | zero => rfl
  | succ fuel ih =>
    unfold parseOptions
    rw [if_pos h]
    split_ifs
    · rfl
    · rfl
    · rfl
    · exact ih _
    · rfl

theorem issued_parseOptions (hnow : 0 ≤ ctx.now ∧ ctx.now < 2 ^ 32) (fuel : Nat) {edns : PRREdns}
    (hedns : edns.cookie = none) (optbuf : Bytes) (cookie : FixedBytes 24)
    (h : (parseOptions ctx fuel edns optbuf).1.cookie = some cookie) : Issued ctx cookie := by
  induction fuel generalizing edns optbuf with
  | zero =>
    rw [parseOptions, hedns] at h
    cases h
  | succ fuel ih =>
    unfold parseOptions at h
    have hnone : ¬edns.cookie.isSome = true := by rw [hedns]; simp
    rw [if_neg hnone] at h
    split_ifs at h
    · rw [hedns] at h
      cases h
    · rw [hedns] at h
      cases h
    · rw [hedns] at h
      cases h
    · exact ih hedns _ h
    · cases htaken : (takeCookie ctx edns ((optbuf.drop 4).take (loadAt optbuf 2 2))).cookie with
      | none => exact ih htaken _ h
      | some taken =>
        rw [parseOptions_of_cookie _ (by rw [htaken]; rfl), htaken] at h
        cases h
        exact issued_takeCookie hnow hedns _ _ htaken

theorem EdnsOption.loadAt_bytes (opt : EdnsOption) (rest : Bytes) :
    loadAt (opt.bytes ++ rest) 0 2 = opt.code.toNat ∧
      loadAt (opt.bytes ++ rest) 2 2 = opt.data.length ∧
      (opt.bytes ++ rest).drop 4 = opt.data ++ rest := by
  have hcode := loadBig_storeBig (k := 2) opt.code.toNat_lt
  have hlength := loadBig_storeBig opt.short
  simp [loadAt, EdnsOption.bytes, List.drop_append, hcode, hlength]

theorem parseOptions_bytes (opt : EdnsOption) (rest : Bytes) (fuel : Nat) (edns : PRREdns) :
    parseOptions ctx (fuel + 1) edns (opt.bytes ++ rest) =
      if opt.code.toNat ≠ PRREdns.optCookie then parseOptions ctx fuel edns rest
      else if edns.cookie.isSome then (edns, false)
      else parseOptions ctx fuel (takeCookie ctx edns opt.data) rest := by
  obtain ⟨hcode, hlength, hdata⟩ := opt.loadAt_bytes rest
  have hlong : 4 ≤ (opt.bytes ++ rest).length := by
    simp [EdnsOption.bytes]
    omega
  have hne : opt.bytes ++ rest ≠ [] := List.ne_nil_of_length_pos (by omega)
  rw [parseOptions, if_neg hne, if_neg (by omega), hcode, hlength, hdata, List.take_left,
    List.drop_left, if_neg (by simp)]

theorem parseOptions_cookie {before : List EdnsOption} {edns : PRREdns} {value : FixedBytes 24}
    (hbefore : ∀ opt ∈ before, opt.code.toNat ≠ PRREdns.optCookie) (hedns : edns.cookie = none)
    {opt : EdnsOption} (hopt : opt.code.toNat = PRREdns.optCookie) (hvalue : opt.data = value.data)
    (rest : Bytes) {fuel : Nat} (hfuel : before.length < fuel) :
    (parseOptions ctx fuel edns (before.flatMap EdnsOption.bytes ++ (opt.bytes ++ rest))).1 =
      checkCookie ctx edns value := by
  induction before generalizing fuel with
  | nil =>
    obtain ⟨fuel, rfl⟩ := Nat.exists_eq_succ_of_ne_zero (by omega : fuel ≠ 0)
    have htaken : takeCookie ctx edns opt.data = checkCookie ctx edns value := by
      rw [hvalue, takeCookie, FixedBytes.ofBytes?_data]
    rw [List.flatMap_nil, List.nil_append, parseOptions_bytes, if_neg (not_not.mpr hopt),
      if_neg (by rw [hedns]; simp), htaken]
    refine parseOptions_of_cookie fuel ?_ rest
    unfold checkCookie
    dsimp only
    split_ifs <;> rfl
  | cons first before ih =>
    obtain ⟨fuel, rfl⟩ := Nat.exists_eq_succ_of_ne_zero (by omega : fuel ≠ 0)
    obtain ⟨hfirst, hbefore⟩ := List.forall_mem_cons.mp hbefore
    rw [List.length_cons] at hfuel
    rw [List.flatMap_cons, List.append_assoc, parseOptions_bytes, if_pos hfirst]
    exact ih hbefore (by omega)

theorem length_le_flatMap_bytes (before : List EdnsOption) :
    before.length ≤ (before.flatMap EdnsOption.bytes).length := by
  induction before with
  | nil => rfl
  | cons first before ih =>
    simp only [List.flatMap_cons, List.length_append, List.length_cons, EdnsOption.bytes,
      length_storeBig]
    omega

def CarriesCookie (request : Bytes) (value : FixedBytes 24) : Prop :=
  ∃ (payload : UInt16) (ttl : Nat) (before : List EdnsOption) (opt : EdnsOption) (rest : Bytes),
    optOf request = some (payload, ttl, before.flatMap EdnsOption.bytes ++ (opt.bytes ++ rest)) ∧
      (∀ other ∈ before, other.code.toNat ≠ PRREdns.optCookie) ∧
      opt.code.toNat = PRREdns.optCookie ∧ opt.data = value.data

theorem additionalEdns_of_carriesCookie {request : Bytes} {value : FixedBytes 24} {m : Message}
    (hm : extractQuestion ctx request = some m) (h : CarriesCookie request value) :
    ∃ edns, edns.badCookie = false ∧ m.additionalEdns = some (checkCookie ctx edns value) := by
  obtain ⟨payload, ttl, before, opt, rest, hoptOf, hbefore, hopt, hvalue⟩ := h
  refine ⟨PRREdns.make payload ttl, rfl, ?_⟩
  rw [additionalEdns_of_extractQuestion hm, hoptOf, Option.map_some, ednsOf]
  congr 1
  refine parseOptions_cookie hbefore rfl hopt hvalue rest ?_
  have hle := length_le_flatMap_bytes before
  simp only [List.length_append, EdnsOption.bytes, length_storeBig]
  omega

theorem cookies_accepted (hnow : 0 ≤ ctx.now ∧ ctx.now < 2 ^ 32) :
    (∀ (request : Bytes) (value : FixedBytes 24) (m : Message), CarriesCookie request value →
      extractQuestion ctx request = some m → ∃ edns, m.additionalEdns = some edns ∧
        (Own ctx value ∧ ctx.now - 30 * 60 ≤ timestamp value ∧
            timestamp value ≤ ctx.now + 5 * 60 →
          edns.cookie = some value ∧ edns.badCookie = false) ∧
        (Own ctx value ∧ ctx.now - 60 * 60 ≤ timestamp value ∧
            timestamp value < ctx.now - 30 * 60 →
          edns.cookie = some (makeServerCookie ctx (clientPart value) ctx.now) ∧
            edns.badCookie = false) ∧
        (¬Own ctx value ∨ timestamp value < ctx.now - 60 * 60 ∨
            ctx.now + 5 * 60 < timestamp value →
          edns.cookie = some (makeServerCookie ctx (clientPart value) ctx.now) ∧
            edns.badCookie = true) ∧
        ((value.data.drop 8).take 4 ≠ [1, 0, 0, 0] → ¬Own ctx value)) ∧
    (∀ clientCookie, timestamp (makeServerCookie ctx clientCookie ctx.now) = ctx.now) ∧
    ∀ (request : Bytes) (m : Message) (edns : PRREdns) (cookie : FixedBytes 24),
      extractQuestion ctx request = some m → m.additionalEdns = some edns →
      edns.cookie = some cookie → ∀ now' : Int, ctx.now ≤ now' →
        now' - 30 * 60 ≤ timestamp cookie → ∀ (request' : Bytes) (m' : Message),
          CarriesCookie request' cookie →
          extractQuestion { ctx with now := now' } request' = some m' →
            ∃ edns', m'.additionalEdns = some edns' ∧ edns'.cookie = some cookie ∧
              edns'.badCookie = false := by
  refine ⟨?_, fun clientCookie => (own_makeServerCookie clientCookie hnow).2, ?_⟩
  · intro request value m hcarries hm
    obtain ⟨edns, hbad, hedns⟩ := additionalEdns_of_carriesCookie hm hcarries
    obtain ⟨hkept, hrenewed, hrefused⟩ := checkCookie_spec edns hbad value
    exact ⟨_, hedns, hkept, hrenewed, hrefused, fun hreserved hown =>
      hreserved (reserved_of_own hown)⟩
  · intro request m edns cookie hm hedns hcookie now' hle hfresh request' m' hcarries hm'
    have hissued : Issued ctx cookie := by
      rw [additionalEdns_of_extractQuestion hm, Option.map_eq_some_iff] at hedns
      obtain ⟨opt, -, rfl⟩ := hedns
      exact issued_parseOptions hnow _ rfl _ cookie hcookie
    obtain ⟨edns', hbad, hedns'⟩ := additionalEdns_of_carriesCookie hm' hcarries
    have hlater : timestamp cookie ≤ now' + 5 * 60 := by
      have := hissued.2
      omega
    exact ⟨_, hedns', (checkCookie_spec edns' hbad cookie).1 ⟨hissued.1, hfresh, hlater⟩⟩

def cookieRequest (cookie : Bytes) : Bytes :=
  [0, 0, 0, 0, 0, 0, 0, 0, 0, 0, 0, 1, 0, 0, 41, 4, 208, 0, 0, 0, 0, 0, 28, 0, 10, 0, 24] ++ cookie

def cookieContext (now : Int) : RequestContext :=
  { localContext with now }

def responseCookie (now : Int) (cookie : FixedBytes 24) : Option (FixedBytes 24) :=
  ((extractQuestion (cookieContext now) (cookieRequest cookie.data)).bind
    Message.additionalEdns).bind PRREdns.cookie

theorem keptCookie_replaced :
    responseCookie (29 * 60) (makeServerCookie (cookieContext 0) (FixedBytes.zero 8) 0) =
        some (makeServerCookie (cookieContext 0) (FixedBytes.zero 8) 0) ∧
      responseCookie (39 * 60) (makeServerCookie (cookieContext 0) (FixedBytes.zero 8) 0) =
        some (makeServerCookie (cookieContext 0) (FixedBytes.zero 8) (39 * 60)) ∧
      makeServerCookie (cookieContext 0) (FixedBytes.zero 8) 0 ≠
        makeServerCookie (cookieContext 0) (FixedBytes.zero 8) (39 * 60) := by
  decide +kernel

def oldCookie : FixedBytes 24 :=
  makeServerCookie (cookieContext 0) (FixedBytes.zero 8) 0

def renewedCookie : FixedBytes 24 :=
  makeServerCookie (cookieContext 0) (FixedBytes.zero 8) (45 * 60)

/-- A cookie that is 45 minutes old is renewed, and the new one is kept ten minutes later. -/
theorem cookies_accepted_renewed :
    responseCookie (45 * 60) oldCookie = some renewedCookie ∧
      responseCookie (55 * 60) renewedCookie = some renewedCookie := by
  obtain ⟨hcookies, -, hback⟩ := @cookies_accepted (cookieContext (45 * 60)) (by decide)
  obtain ⟨m, hm⟩ := Option.isSome_iff_exists.mp (by decide +kernel : (extractQuestion
    (cookieContext (45 * 60)) (cookieRequest oldCookie.data)).isSome = true)
  obtain ⟨m', hm'⟩ := Option.isSome_iff_exists.mp (by decide +kernel : (extractQuestion
    (cookieContext (55 * 60)) (cookieRequest renewedCookie.data)).isSome = true)
  have hcarries : CarriesCookie (cookieRequest oldCookie.data) oldCookie :=
    ⟨1232, 0, [], ⟨10, oldCookie.data, by decide +kernel⟩, [], by decide +kernel,
      fun _ hmem => absurd hmem List.not_mem_nil, rfl, rfl⟩
  have hcarries' : CarriesCookie (cookieRequest renewedCookie.data) renewedCookie :=
    ⟨1232, 0, [], ⟨10, renewedCookie.data, by decide +kernel⟩, [], by decide +kernel,
      fun _ hmem => absurd hmem List.not_mem_nil, rfl, rfl⟩
  obtain ⟨edns, hedns, -, hrenewed, -⟩ := hcookies _ oldCookie m hcarries hm
  have hcookie : edns.cookie = some renewedCookie :=
    (hrenewed ⟨by unfold Own; decide +kernel, by decide +kernel, by decide +kernel⟩).1.trans
      (by decide +kernel)
  obtain ⟨edns', hedns', hcookie', -⟩ := hback _ m edns renewedCookie hm hedns hcookie (55 * 60)
    (by decide) (by decide +kernel) _ m' hcarries' hm'
  exact ⟨by rw [responseCookie, hm, Option.bind_some, hedns, Option.bind_some, hcookie],
    by rw [responseCookie, hm', Option.bind_some, hedns', Option.bind_some, hcookie']⟩

end SessionRouter.Dns
