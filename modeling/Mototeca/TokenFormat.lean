import Mathlib.Tactic.IntervalCases
import Mathlib.Tactic.Linarith
import Mototeca.Tokens

/-!
# The format of session tokens

Both encodings of a token read back: unpadded base64, whose alphabet has no
`.`, and the three fields, none of which has a `:`.
-/

namespace Mototeca

/-! ## Base64 -/

theorem byte_ext {x y : UInt8} (h : ∀ i < 8, x.toBitVec.getLsbD i = y.toBitVec.getLsbD i) : x = y :=
  UInt8.toBitVec_inj.mp (BitVec.eq_of_getLsbD_eq h)

theorem first_byte (x y : UInt8) : (x >>> 2) <<< 2 ||| ((x &&& 3) <<< 4 ||| y >>> 4) >>> 4 = x := by
  refine byte_ext fun i hi => ?_
  interval_cases i <;> simp

theorem second_byte (x y z : UInt8) :
    ((x &&& 3) <<< 4 ||| y >>> 4) <<< 4 ||| ((y &&& 15) <<< 2 ||| z >>> 6) >>> 2 = y := by
  refine byte_ext fun i hi => ?_
  interval_cases i <;> simp

theorem third_byte (y z : UInt8) : ((y &&& 15) <<< 2 ||| z >>> 6) <<< 6 ||| (z &&& 63) = z := by
  refine byte_ext fun i hi => ?_
  interval_cases i <;> simp

theorem fromSextets_toSextets (s : Bytes) : fromSextets (toSextets s) = some s := by
  induction s using toSextets.induct with
  | case1 => rfl
  | case2 x => simpa [toSextets, fromSextets] using first_byte x 0
  | case3 x y =>
    have hy := second_byte x y 0
    simp only [UInt8.zero_shiftRight, UInt8.or_zero] at hy
    simp [toSextets, fromSextets, first_byte, hy]
  | case4 x y z rest ih => simp [toSextets, fromSextets, first_byte, second_byte, third_byte, ih]

theorem lt_of_and_eq {n : UInt8} (h : n &&& 63 = n) : n < 64 := by
  have hle : (n &&& 63).toNat ≤ 63 := by
    rw [UInt8.toNat_and]
    exact Nat.and_le_right
  rw [h] at hle
  exact UInt8.lt_iff_toNat_lt.mpr (Nat.lt_succ_of_le hle)

/-- The four sextets of three bytes. -/
theorem group_lt (x y : UInt8) :
    x >>> 2 < 64 ∧ (x &&& 3) <<< 4 ||| y >>> 4 < 64 ∧ (x &&& 15) <<< 2 ||| y >>> 6 < 64 ∧ x &&& 63 < 64 := by
  refine ⟨lt_of_and_eq (byte_ext fun i hi => ?_), lt_of_and_eq (byte_ext fun i hi => ?_),
    lt_of_and_eq (byte_ext fun i hi => ?_), lt_of_and_eq (byte_ext fun i hi => ?_)⟩ <;>
    interval_cases i <;> simp

theorem toSextets_lt (s : Bytes) : ∀ n ∈ toSextets s, n < 64 := by
  induction s using toSextets.induct with
  | case1 => simp [toSextets]
  | case2 x => simpa [toSextets] using And.intro (group_lt x 0).1 (group_lt x 0).2.1
  | case3 x y => simpa [toSextets] using And.intro (group_lt x 0).1 (And.intro (group_lt x y).2.1 (group_lt y 0).2.2.1)
  | case4 x y z rest ih =>
    simp only [toSextets, List.forall_mem_cons]
    exact ⟨(group_lt x 0).1, (group_lt x y).2.1, (group_lt y z).2.2.1, (group_lt z 0).2.2.2, ih⟩

theorem alphabet : ∀ n : Fin 64, decodeSextet (encodeSextet (UInt8.ofNat n)) = some (UInt8.ofNat n) ∧
    encodeSextet (UInt8.ofNat n) ∉ [10, 13, 46] := by
  decide

theorem encodeSextet_spec {n : UInt8} (h : n < 64) :
    decodeSextet (encodeSextet n) = some n ∧ encodeSextet n ∉ [10, 13, 46] := by
  have := alphabet ⟨n.toNat, UInt8.lt_iff_toNat_lt.mp h⟩
  rwa [UInt8.ofNat_toNat] at this

theorem not_mem_encodeToString {b : UInt8} (hb : b ∈ [10, 13, 46]) (s : Bytes) : b ∉ encodeToString s := by
  intro h
  obtain ⟨n, hn, rfl⟩ := List.mem_map.mp h
  exact (encodeSextet_spec (toSextets_lt s n hn)).2 hb

theorem mapM_decodeSextet {l : List UInt8} (h : ∀ n ∈ l, n < 64) : (l.map encodeSextet).mapM decodeSextet = some l := by
  induction l with
  | nil => rfl
  | cons n l ih =>
    obtain ⟨hn, hl⟩ := List.forall_mem_cons.mp h
    simp [(encodeSextet_spec hn).1, ih hl]

theorem decodeString_encodeToString (s : Bytes) : decodeString (encodeToString s) = some s := by
  have hbreaks : (encodeToString s).filter (fun b => b != 13 && b != 10) = encodeToString s := by
    refine List.filter_eq_self.mpr fun b hb => ?_
    have h13 : b ≠ 13 := fun h => not_mem_encodeToString (by simp) s (h ▸ hb)
    have h10 : b ≠ 10 := fun h => not_mem_encodeToString (by simp) s (h ▸ hb)
    simp [h13, h10]
  rw [decodeString, hbreaks, encodeToString, mapM_decodeSextet (toSextets_lt s)]
  exact fromSextets_toSextets s

/-! ## Fields -/

theorem cut_append {sep : UInt8} {before : Bytes} (h : sep ∉ before) (rest : Bytes) :
    cut sep (before ++ sep :: rest) = some (before, rest) := by
  have hne : ∀ b ∈ before, (b != sep) = true := fun b hb => bne_iff_ne.mpr fun e => h (e ▸ hb)
  have htake : (before ++ sep :: rest).takeWhile (· != sep) = before := by
    rw [List.takeWhile_append_of_pos hne]
    simp
  have hdrop : (before ++ sep :: rest).dropWhile (· != sep) = sep :: rest := by
    rw [List.dropWhile_append_of_pos hne]
    simp
  unfold cut
  rw [if_pos (by simp), htake, hdrop]
  rfl

theorem cut_some {sep : UInt8} {s before rest : Bytes} (h : cut sep s = some (before, rest)) :
    s = before ++ sep :: rest := by
  have hmem : sep ∈ s := by
    by_contra hc
    simp [cut, hc] at h
  obtain ⟨before', rest', rfl, hnot⟩ := List.eq_append_cons_of_mem hmem
  obtain ⟨rfl, rfl⟩ := Prod.mk.inj (Option.some.inj ((cut_append hnot rest').symm.trans h))
  rfl

theorem splitOn_three {sep : UInt8} {s a b c : Bytes} (h : s.splitOn sep = [a, b, c]) :
    s = a ++ sep :: (b ++ sep :: c) := by
  have hjoin : [sep].intercalate (s.splitOn sep) = s := List.intercalate_splitOn sep
  rw [h] at hjoin
  simpa [List.intercalate_cons_cons] using hjoin.symm

theorem Kind.parse_some {text : Bytes} {kind : Kind} (h : Kind.parse text = some kind) : kind.text = text := by
  unfold Kind.parse at h
  split at h
  · next htext => rw [htext, ← Option.some.inj h]
  · split at h
    · next htext => rw [htext, ← Option.some.inj h]
    · cases h

/-! ## Round trip -/

/-- `Unix` and `time.Unix` count in an `int64`, and a `time.Time` counts its seconds from year 1 in another. -/
def UnixRange (seconds : Int) : Prop := -9223372036854775808 ≤ seconds ∧ seconds ≤ 9223372036854775807 - 62135596800

theorem UnixRange.read {n : Int} (h : UnixRange n) : parseInt64 (formatInt n) = some n := by
  have := h.1
  have := h.2
  rw [parseInt64_formatInt_eq, Option.filter_eq_some_iff]
  exact ⟨rfl, by simp; omega⟩

namespace Signer

variable {signer : Signer}

theorem decode_encode (payload signature : Bytes) :
    decode (encodeToString payload ++ 46 :: encodeToString signature) = some (payload, signature) := by
  have hdot : (46 : UInt8) ∉ encodeToString payload := not_mem_encodeToString (by simp) payload
  simp [decode, cut_append hdot, decodeString_encodeToString]

theorem decode_some {token payload signature : Bytes} (h : decode token = some (payload, signature)) :
    ∃ rawPayload rawSignature, token = rawPayload ++ 46 :: rawSignature ∧
      decodeString rawPayload = some payload ∧ decodeString rawSignature = some signature := by
  unfold decode at h
  split at h
  · cases h
  · rename_i rawPayload rawSignature hcut
    split at h
    · rename_i hp hs
      obtain ⟨rfl, rfl⟩ := Prod.mk.inj (Option.some.inj h)
      exact ⟨rawPayload, rawSignature, cut_some hcut, hp, hs⟩
    · cases h

theorem read_issue {subject : Subject} {issuedAt : Time} (hne : subject.id ≠ []) (hid : (58 : UInt8) ∉ subject.id)
    (hrange : UnixRange (signer.expiry issuedAt)) (now : Time) :
    read (signer.payload subject issuedAt) now =
      if now ≤ signer.expiry issuedAt * second then some subject else none := by
  simp only [read, split_payload hid, Kind.parse_text, hne, if_false, hrange.read]
  by_cases hle : now ≤ signer.expiry issuedAt * second
  · rw [if_neg (not_lt.mpr hle), if_pos hle]
  · rw [if_pos (not_le.mp hle), if_neg hle]

theorem read_some {payload : Bytes} {now : Time} {subject : Subject} (h : read payload now = some subject) :
    ∃ expiryText expiry, payload = subject.kind.text ++ 58 :: (subject.id ++ 58 :: expiryText) ∧
      parseInt64 expiryText = some expiry ∧ subject.id ≠ [] ∧ now ≤ expiry * second := by
  unfold read at h
  split at h
  · rename_i kindText id expiryText hsplit
    split at h
    · cases h
    · rename_i kind hkind
      split at h
      · cases h
      · rename_i hne
        split at h
        · cases h
        · rename_i expiry hexpiry
          split at h
          · cases h
          · rename_i hle
            obtain rfl := Option.some.inj h
            rw [← Kind.parse_some hkind] at hsplit
            exact ⟨expiryText, expiry, splitOn_three hsplit, hexpiry, hne, not_lt.mp hle⟩
  · cases h

end Signer

/-- A token reads back as its subject up to the whole second of its expiry, and
what is accepted is a signed payload of three fields. -/
theorem verify_issue (signer : Signer) :
    (∀ (subject : Subject) (issuedAt : Time), subject.id ≠ [] → (58 : UInt8) ∉ subject.id →
      UnixRange (signer.expiry issuedAt) →
      ∃ token, signer.issue subject issuedAt = .ok token ∧ ∀ now,
        signer.verify token now = if now ≤ (issuedAt + signer.ttl) / second * second then some subject else none) ∧
    (∀ (token : Bytes) (now : Time) (subject : Subject), signer.verify token now = some subject →
      ∃ rawPayload rawSignature expiryText expiry,
        token = rawPayload ++ 46 :: rawSignature ∧
        decodeString rawPayload = some (subject.kind.text ++ 58 :: (subject.id ++ 58 :: expiryText)) ∧
        parseInt64 expiryText = some expiry ∧ subject.id ≠ [] ∧ now ≤ expiry * second ∧
        decodeString rawSignature =
          some (signer.mac signer.secret (subject.kind.text ++ 58 :: (subject.id ++ 58 :: expiryText)))) := by
  refine ⟨fun subject issuedAt hne hid hrange => ?_, fun token now subject hverify => ?_⟩
  · refine ⟨encodeToString (signer.payload subject issuedAt) ++
      46 :: encodeToString (signer.sign (signer.payload subject issuedAt)), ?_, fun now => ?_⟩
    · simp [Signer.issue, hne, hid]
    · simp only [Signer.verify, Signer.decode_encode, if_true]
      exact Signer.read_issue hne hid hrange now
  · obtain ⟨payload, hdecode, hread⟩ := Signer.verify_some hverify
    obtain ⟨rawPayload, rawSignature, htoken, hpayload, hsignature⟩ := Signer.decode_some hdecode
    obtain ⟨expiryText, expiry, rfl, hexpiry, hne, hle⟩ := Signer.read_some hread
    exact ⟨rawPayload, rawSignature, expiryText, expiry, htoken, hpayload, hexpiry, hne, hle, hsignature⟩

theorem verify_issue_sample : ∃ token, sampleSigner.issue ⟨.workshop, ascii "00000000-0000-0000-0000-000000000001"⟩ 0 =
      .ok token ∧ (sampleSigner.verify token (3600 * second)).isSome = true ∧
    sampleSigner.verify token (3600 * second + 1) = none ∧
    ∃ rawPayload rawSignature, token = rawPayload ++ 46 :: rawSignature := by
  obtain ⟨hissue, haccept⟩ := verify_issue sampleSigner
  obtain ⟨token, hok, hverify⟩ := hissue ⟨.workshop, ascii "00000000-0000-0000-0000-000000000001"⟩ 0 (by decide) (by decide)
    ⟨by decide, by decide⟩
  have hin := hverify (3600 * second)
  rw [if_pos (by decide)] at hin
  obtain ⟨rawPayload, rawSignature, _, _, htoken, -⟩ := haccept token _ _ hin
  refine ⟨token, hok, by rw [hin]; rfl, ?_, rawPayload, rawSignature, htoken⟩
  rw [hverify, if_neg (by decide)]

end Mototeca
