import Imageboard.Proofs.Effects
import Imageboard.Proofs.Http.Header
import Imageboard.Proofs.Text.Cuts
import Imageboard.Signature.SigningString

namespace Imageboard

open Text

theorem Method.not_mem_lower (m : Method) {c : Char} (hc : isTokenChar c = false)
    (hd : c.toNat < 97) : c ∉ (lower m.text).toList :=
  Text.not_mem_lower hd (not_mem_of_all m.text_ok hc)

theorem Uri.not_mem_target (u : Uri) {c : Char} (hc : isTargetChar c = false) (hs : c ≠ '/') :
    c ∉ u.target.toList := by
  unfold target
  split
  · split
    · exact fun h => hs (List.mem_singleton.1 h)
    · exact not_mem_of_all u.resource_ok hc
  · exact List.not_mem_nil

namespace RequestHead

def targetLine (r : RequestHead) : String :=
  lower r.method.text ++ " " ++ r.uri.target

def trimmed? (r : RequestHead) (name : String) : Option String :=
  ((HeaderName.of? name).bind r.headers.get?).map fun v => trim v.text

/-- What a signed name stands for in a request. -/
def covered (r : RequestHead) (name : String) : String :=
  if name = requestTarget then r.targetLine else (r.trimmed? name).getD ""

variable {r r' : RequestHead} {name line text : String} {names : List String}

theorem targetLine_inj (h : r.targetLine = r'.targetLine) :
    lower r.method.text = lower r'.method.text ∧ r.uri.target = r'.uri.target := by
  have h := congrArg String.toList h
  simp only [targetLine, String.toList_append, List.append_assoc] at h
  obtain ⟨hm, hu⟩ := append_sep_inj h (r.method.not_mem_lower (by decide) (by decide))
    (r'.method.not_mem_lower (by decide) (by decide))
  exact ⟨String.toList_injective hm, String.toList_injective hu⟩

theorem newline_not_mem_targetLine : '\n' ∉ r.targetLine.toList := by
  simp only [targetLine, String.toList_append, List.mem_append, not_or]
  exact ⟨⟨r.method.not_mem_lower (by decide) (by decide), by decide⟩,
    r.uri.not_mem_target (by decide) (by decide)⟩

theorem signedLine_eq_ok (h : r.signedLine name = .ok line) :
    line = name ++ ": " ++ r.covered name ∧ '\n' ∉ (r.covered name).toList ∧
      (name ≠ requestTarget → r.trimmed? name = some (r.covered name)) := by
  unfold signedLine at h
  unfold covered
  split at h
  next hname =>
    rw [if_pos hname]
    refine ⟨?_, newline_not_mem_targetLine, fun hne => absurd hname hne⟩
    rw [← Except.ok.inj h, targetLine]
    simp only [String.append_assoc]
  next hname =>
    rw [if_neg hname]
    obtain ⟨key, hk, h⟩ := except_bind_eq_ok.1 h
    have hk := orBreak_eq_ok.1 (doing_eq_ok.1 hk)
    split at h
    next => cases h
    next value hv =>
      obtain ⟨text, ht, h⟩ := except_bind_eq_ok.1 h
      obtain ⟨rfl, hplain⟩ := HeaderValue.plain?_eq_some_iff.1 (orBreak_eq_ok.1 (doing_eq_ok.1 ht))
      have htrim : r.trimmed? name = some (trim value.text) := by
        rw [trimmed?, hk, Option.bind_some, hv, Option.map_some]
      rw [htrim]
      refine ⟨(except_pure_eq_ok.1 h).symm, fun hm => ?_, fun _ => rfl⟩
      rw [Option.getD_some, trim, String.toList_ofList] at hm
      exact not_mem_of_all hplain (by decide) (mem_of_mem_strip hm)

theorem signingString_eq_ok (h : r.signingString names = .ok text) :
    text = join "\n" (names.map fun name => name ++ ": " ++ r.covered name) ∧
      ∀ name ∈ names, r.signedLine name = .ok (name ++ ": " ++ r.covered name) := by
  obtain ⟨lines, hl, h⟩ := except_bind_eq_ok.1 h
  obtain rfl := except_pure_eq_ok.1 h
  obtain ⟨rfl, hall⟩ := mapM_eq_ok (fun _ _ h => (signedLine_eq_ok h).1) hl
  exact ⟨rfl, hall⟩

theorem not_mem_of_signedLine {c : Char} (h : r.signedLine name = .ok line)
    (hc : isTokenChar c = false) (hlow : lowerChar c = c) (ht : c ∉ requestTarget.toList) :
    c ∉ name.toList := by
  unfold signedLine at h
  split at h
  next hname => rwa [hname]
  next =>
    obtain ⟨key, hk, -⟩ := except_bind_eq_ok.1 h
    obtain ⟨hkey, -⟩ := HeaderName.text_of_of? (orBreak_eq_ok.1 (doing_eq_ok.1 hk))
    intro hm
    apply not_mem_of_all key.text_ok hc
    rw [hkey, lower, String.toList_ofList]
    exact List.mem_map.2 ⟨c, hm, hlow⟩

/-- The text that is signed tells which names are signed and what each of them stands for. -/
theorem names_and_covered_eq (h : r.signingString names = .ok text)
    (h' : r'.signingString names' = .ok text) :
    names = names' ∧ ∀ name ∈ names, r.covered name = r'.covered name := by
  have colon {r : RequestHead} {names : List String} (h : r.signingString names = .ok text) :
      ∀ name ∈ names, ':' ∉ name.toList := fun name hn =>
    not_mem_of_signedLine ((signingString_eq_ok h).2 name hn) (by decide) (by decide) (by decide)
  have whole {r : RequestHead} {names : List String} (h : r.signingString names = .ok text) :
      ∀ line ∈ names.map (fun name => name ++ ": " ++ r.covered name),
        line ≠ "" ∧ '\n' ∉ line.toList := by
    intro line hline
    obtain ⟨name, hn, rfl⟩ := List.mem_map.1 hline
    have hl := (signingString_eq_ok h).2 name hn
    rw [← String.toList_inj.ne]
    simp only [String.toList_append, List.mem_append, not_or]
    refine ⟨by simp, ⟨?_, by decide⟩, (signedLine_eq_ok hl).2.1⟩
    exact not_mem_of_signedLine hl (by decide) (by decide) (by decide)
  have joined := (signingString_eq_ok h).1.symm.trans (signingString_eq_ok h').1
  exact labels_inj rfl (colon h) (colon h') (join_inj rfl (whole h) (whole h') joined)

theorem covered_eq_of_signingString (h : r.signingString names = .ok text)
    (h' : r'.signingString names = .ok text) : ∀ name ∈ names, r.covered name = r'.covered name :=
  (names_and_covered_eq h h').2

/-- Requests with one text to sign have signed the same names in the same order. They agree on
method and target if these are signed, and each other name stands for one value in both of them. -/
theorem signingString_injective (h : r.signingString names = .ok text)
    (h' : r'.signingString names' = .ok text) :
    names = names' ∧
    (requestTarget ∈ names →
      lower r.method.text = lower r'.method.text ∧ r.uri.target = r'.uri.target) ∧
    ∀ name ∈ names, name ≠ requestTarget →
      ∃ value, r.trimmed? name = some value ∧ r'.trimmed? name = some value := by
  obtain ⟨rfl, covered⟩ := names_and_covered_eq h h'
  refine ⟨rfl, fun hn => ?_, fun name hn hne => ?_⟩
  · have line := covered _ hn
    rw [RequestHead.covered, if_pos rfl, RequestHead.covered, if_pos rfl] at line
    exact targetLine_inj line
  · have value := (signedLine_eq_ok ((signingString_eq_ok h).2 name hn)).2.2 hne
    have value' := (signedLine_eq_ok ((signingString_eq_ok h').2 name hn)).2.2 hne
    exact ⟨_, value, covered name hn ▸ value'⟩

theorem signingString_injective_of_spelling :
    let r : RequestHead :=
      ⟨.post, ⟨true, "h", "/x?y", by decide, by decide⟩, [(.host, ⟨"h", by decide⟩)]⟩
    let r' : RequestHead :=
      ⟨⟨"Post", by decide⟩, ⟨false, "", "/x?y", by decide, by decide⟩,
        [(.host, ⟨" h ", by decide⟩), (.host, ⟨"k", by decide⟩)]⟩
    let names := [requestTarget, "Host"]
    let text := "(request-target): post /x?y\nHost: h"
    r.signingString names = .ok text ∧ r'.signingString names = .ok text ∧
      lower r.method.text = lower r'.method.text ∧ r.uri.target = r'.uri.target ∧
      ∃ value, r.trimmed? "Host" = some value ∧ r'.trimmed? "Host" = some value := by
  intro r r' names text
  have signed : r.signingString names = .ok text := by decide +kernel
  have signed' : r'.signingString names = .ok text := by decide +kernel
  obtain ⟨-, target, values⟩ := signingString_injective signed signed'
  obtain ⟨method, uri⟩ := target List.mem_cons_self
  exact ⟨signed, signed', method, uri, values "Host" (by decide) (by decide)⟩

end RequestHead
end Imageboard
