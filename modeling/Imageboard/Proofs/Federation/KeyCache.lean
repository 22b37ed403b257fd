import Imageboard.Proofs.Federation.KeyResolver

namespace Imageboard

open SignatureHeader (withoutFragment)

theorem SignatureHeader.toList_withoutFragment (keyId : String) :
    (withoutFragment keyId).toList = keyId.toList.takeWhile (· ≠ '#') := by
  have uncut {cs : List Char} (h : '#' ∉ cs) : cs.takeWhile (· ≠ '#') = cs :=
    List.takeWhile_eq_self_iff.2 fun c hc => decide_eq_true (ne_of_mem_of_not_mem hc h)
  unfold withoutFragment
  split
  next front back hcut =>
    obtain ⟨hc, hn⟩ := Text.cut?_eq_some_iff.1 hcut
    rw [hc, List.takeWhile_append, uncut hn]
    simp
  next hcut => exact (uncut (Text.cut?_eq_none_iff.1 hcut)).symm

theorem withoutFragment_eq_self {keyId : String} (h : '#' ∉ keyId.toList) :
    withoutFragment keyId = keyId := by
  rw [withoutFragment, Text.cut?_eq_none_iff.2 h]

namespace Resolution

variable {call c : Resolution} {calls : List Resolution} {key : ResolvedKey}

/-- Two calls meet the same web if all requests are answered alike at both. -/
def MeetsSameWeb (c call : Resolution) : Prop :=
  ∀ request, c.web c.log request = call.web call.log request

theorem Finds.of_sameWeb (h : c.Finds key) (same : c.MeetsSameWeb call) : call.Finds key := by
  obtain ⟨status, text, hreply, hs, hp⟩ := h
  exact ⟨status, text, (same _).symm.trans hreply, hs, hp⟩

theorem fetched_of_finds (hw : call.Wants key) (hf : call.Finds key) : call.fetched = .ok key := by
  have named (w : String) (h : call.wanted = some w) : key.keyId = w := by
    unfold wanted at h
    split at h
    next => cases h
    next hne =>
      cases h
      exact hw.2 (Classical.byContradiction fun hn => hne (withoutFragment_eq_self hn))
  have published : call.web.Publishes call.log call.actorUrl key.keyId key.pem := hw.1 ▸ hf
  exact congrArg Prod.fst (fetchKey_yields_iff.2 ⟨hw.1, named, published, rfl⟩)

theorem run_empty (call : Resolution) : (call.run {}).1 = call.fetched := by
  rcases run_cases call {} with ⟨k, hk, _⟩ | ⟨h, _⟩
  · cases hk
  · exact h

/-- On an unchanged web a call ends as without a cache. -/
theorem run_eq_fetched (same : ∀ c ∈ calls, c.MeetsSameWeb call) :
    (call.run (.after calls)).1 = call.fetched := by
  rcases run_cases call (.after calls) with ⟨k, hk, hw, -, hr⟩ | ⟨h, -⟩
  · obtain ⟨before, c, hc, hf, -⟩ := mem_after hk
    have hmem : c ∈ calls := hc.subset (by simp)
    rw [hr, fetched_of_finds hw (hf.document.of_sameWeb (same c hmem))]
  · exact h

/-- A key that is answered belongs to the address before the first `#` of the key id, and is the one
of the key id if there is a `#`. It was fetched at this call or at one less than a lifetime before.
On a web that stays the same every answer, a failure too, is the answer without a cache. -/
theorem run_sound_and_transparent (calls : List Resolution) (call : Resolution)
    (forward : (calls ++ [call]).Pairwise fun c d => c.tick ≤ d.tick) :
    (∀ key, (call.run (.after calls)).1 = .ok key →
      key.actorUrl.toList = call.keyId.toList.takeWhile (· ≠ '#') ∧
      ('#' ∈ call.keyId.toList → key.keyId = call.keyId) ∧
      ∃ before c, before ++ [c] <+: calls ++ [call] ∧ c.Fetches (.after before) key ∧
        c.tick ≤ call.tick ∧ call.tick < c.tick + keyLifetime) ∧
    ((∀ c ∈ calls, c.MeetsSameWeb call) → (call.run (.after calls)).1 = (call.run {}).1) := by
  refine ⟨fun key h => ?_, fun same => (run_eq_fetched same).trans call.run_empty.symm⟩
  obtain ⟨⟨hurl, hid⟩, before, c, hc, hf, ht⟩ := run_eq_ok h
  have earlier : c.tick ≤ call.tick := by
    have hmem : c ∈ calls ++ [call] := hc.subset (by simp)
    rcases List.mem_append.1 hmem with hmem | hmem
    · exact (List.pairwise_append.1 forward).2.2 c hmem call (List.mem_singleton_self call)
    · exact (List.mem_singleton.1 hmem ▸ le_refl call.tick)
  refine ⟨?_, hid, before, c, hc, hf, earlier, ht⟩
  rw [hurl]
  exact SignatureHeader.toList_withoutFragment call.keyId

theorem run_sound_and_transparent_of_hit :
    let web : Web := fun _ _ =>
      .answered 200 "\x7b\"publicKey\":\x7b\"id\":\"http://u#k\",\"publicKeyPem\":\"p\"\x7d\x7d"
    let first : Resolution := { web, tick := 0, keyId := "http://u" }
    let call : Resolution :=
      { web, tick := 299999, keyId := "http://u#k", log := first.logAfter {} }
    ([first] ++ [call]).Pairwise (fun c d => c.tick ≤ d.tick) ∧
      (call.run (.after [first])).1 = .ok ⟨"http://u", "http://u#k", "p"⟩ ∧
      (call.logAfter (.after [first])).length = 1 ∧
      (∃ before c, before ++ [c] <+: [first] ++ [call] ∧
        c.Fetches (.after before) ⟨"http://u", "http://u#k", "p"⟩ ∧
        c.tick ≤ call.tick ∧ call.tick < c.tick + keyLifetime) ∧
      (call.run (.after [first])).1 = (call.run {}).1 := by
  intro web first call
  have forward : ([first] ++ [call]).Pairwise fun c d => c.tick ≤ d.tick := by decide
  have answer : (call.run (.after [first])).1 = .ok ⟨"http://u", "http://u#k", "p"⟩ := by
    decide +kernel
  obtain ⟨sound, transparent⟩ := run_sound_and_transparent [first] call forward
  obtain ⟨-, -, source⟩ := sound _ answer
  have same : ∀ c ∈ [first], c.MeetsSameWeb call := by
    intro c hc request
    rw [List.mem_singleton.1 hc]
  exact ⟨forward, answer, by decide +kernel, source, transparent same⟩

end Resolution
end Imageboard
