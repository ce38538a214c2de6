import Serf.RelayDestination
import Serf.Wire.Sizes

/-!
The list of keys in a response. A response that is over the size limit is tried again
with fewer keys and a message that says how many are shown, down to a single key; the
first that fits is sent. The counter starts at the number of keys of 25 bytes for which
the limit has room, so longer lists of shorter keys are not tried, and neither is the
response without keys.
-/

namespace Serf.KeyList

open Library.Collections Library.Encoding Library.LittleEndian
open QueryHandler QueryAnswers RelayDestination Wire

variable {Id Address : Type} [DecidableEq Id] (responder : Responder Id Address)
  (event : QueryEvent Id Address)

section Search

/-- The first keys, and a message that says how many they are. -/
def shortened (actual : Nat) (resp : KeyResponseMessage) (shown : Nat) : KeyResponseMessage :=
  { resp with keys := resp.keys.take shown, message := truncatedMessage shown actual }

def shorter (actual : Nat) (resp : KeyResponseMessage) : Nat → List KeyResponseMessage
  | 0 => []
  | shown + 1 => shortened actual resp (shown + 1) :: shorter actual resp shown

/-- For how many keys the limit is taken to have room. -/
def keyRoom : Nat := responder.queryResponseSizeLimit / minEncodedKeyLength

def maxListKeys (resp : KeyResponseMessage) : Nat := min (keyRoom responder) resp.keys.length

variable (actual : Nat) (resp : KeyResponseMessage)

theorem shortened_shortened (more fewer : Nat) (less : fewer ≤ more) :
    shortened actual (shortened actual resp more) fewer = shortened actual resp fewer := by
  simp only [shortened, List.take_take, Nat.min_eq_left less]

theorem shorter_shortened (more fewer : Nat) (less : fewer ≤ more) :
    shorter actual (shortened actual resp more) fewer = shorter actual resp fewer := by
  induction fewer with
  | zero => rfl
  | succ fewer ih =>
    rw [shorter, shorter, shortened_shortened actual resp more _ less, ih (by omega)]

theorem mem_shorter_iff (most : Nat) (candidate : KeyResponseMessage) :
    candidate ∈ shorter actual resp most ↔
      ∃ shown, 1 ≤ shown ∧ shown ≤ most ∧ candidate = shortened actual resp shown := by
  induction most with
  | zero =>
    constructor
    · intro none
      cases none
    · rintro ⟨shown, some, none, _⟩
      omega
  | succ most ih =>
    rw [shorter, List.mem_cons, ih]
    constructor
    · rintro (rfl | ⟨shown, some, less, rfl⟩)
      · exact ⟨most + 1, by omega, le_rfl, rfl⟩
      · exact ⟨shown, some, by omega, rfl⟩
    · rintro ⟨shown, some, less, rfl⟩
      rcases Nat.le_succ_iff.mp less with before | rfl
      · exact Or.inr ⟨shown, some, before, rfl⟩
      · exact Or.inl rfl

theorem comesTo_shorter_iff (passed stops : KeyResponseMessage → Prop) (actual : Nat)
    (resp : KeyResponseMessage) (most : Nat) :
    ComesTo passed stops (shorter actual resp most) ↔
      ∃ shown, 1 ≤ shown ∧ shown ≤ most ∧ stops (shortened actual resp shown) ∧
        ∀ more, shown < more → more ≤ most → passed (shortened actual resp more) := by
  induction most with
  | zero =>
    constructor
    · intro none
      exact absurd none (not_comesTo_nil passed stops)
    · rintro ⟨shown, some, none, _⟩
      omega
  | succ most ih =>
    rw [shorter, comesTo_cons, ih]
    constructor
    · rintro (here | ⟨now, shown, some, less, there, all⟩)
      · exact ⟨most + 1, by omega, le_rfl, here, fun more above below => by omega⟩
      · refine ⟨shown, some, by omega, there, ?_⟩
        intro more above below
        rcases Nat.le_succ_iff.mp below with before | rfl
        · exact all more above before
        · exact now
    · rintro ⟨shown, some, less, there, all⟩
      rcases Nat.le_succ_iff.mp less with before | rfl
      · exact Or.inr ⟨all (most + 1) (by omega) le_rfl, shown, some, before, there,
          fun more above below => all more above (by omega)⟩
      · exact Or.inl there

def settle {Made : Type} : Except RespondError (Option Made) → Except RespondError Made
  | .error reason => .error reason
  | .ok (some made) => .ok made
  | .ok none => .error .failTruncateResponse

theorem settle_ok_iff {Made : Type} (found : Except RespondError (Option Made)) (made : Made) :
    settle found = .ok made ↔ found = .ok (some made) := by
  rcases found with reason | _ | other <;> simp [settle]

theorem settle_error {Made : Type} (found : Except RespondError (Option Made))
    (reason : RespondError) (failed : settle found = .error reason) :
    found = .error reason ∨ found = .ok none := by
  rcases found with other | _ | made
  · cases failed
    exact Or.inl rfl
  · exact Or.inr rfl
  · cases failed

theorem keyListLoop_eq (i : Nat) (resp : KeyResponseMessage) :
    keyListLoop responder event actual i resp =
      settle ((resp :: shorter actual resp i).findSomeM? (fitKeyList responder event)) := by
  induction i generalizing resp with
  | zero =>
    rw [keyListLoop, List.findSomeM?_cons]
    cases fitKeyList responder event resp with
    | error reason => rfl
    | ok fit =>
      cases fit with
      | some made => rfl
      | none => rfl
  | succ i ih =>
    rw [keyListLoop, List.findSomeM?_cons]
    cases fitKeyList responder event resp with
    | error reason => rfl
    | ok fit =>
      cases fit with
      | some made => rfl
      | none =>
        have next := ih (shortened actual resp (i + 1))
        rw [shorter_shortened actual resp (i + 1) i (by omega)] at next
        exact next

/-- All that is tried, in this order. -/
def candidates (resp : KeyResponseMessage) : List KeyResponseMessage :=
  resp :: shorter resp.keys.length resp (maxListKeys responder resp)

theorem keyList_eq :
    keyListResponseWithCorrectSize responder event resp =
      settle ((candidates responder resp).findSomeM? (fitKeyList responder event)) :=
  keyListLoop_eq responder event resp.keys.length (maxListKeys responder resp) resp

theorem keyList_ok_iff (made : Bytes × QueryResponseMessage Id Address) :
    keyListResponseWithCorrectSize responder event resp = .ok made ↔
      fitKeyList responder event resp = .ok (some made) ∨
        fitKeyList responder event resp = .ok none ∧
          ∃ shown, 1 ≤ shown ∧ shown ≤ maxListKeys responder resp ∧
            fitKeyList responder event (shortened resp.keys.length resp shown) = .ok (some made) ∧
            ∀ more, shown < more → more ≤ maxListKeys responder resp →
              fitKeyList responder event (shortened resp.keys.length resp more) = .ok none := by
  rw [keyList_eq, settle_ok_iff, findSomeM_ends_iff _ _ _ (by simp), candidates, comesTo_cons,
    comesTo_shorter_iff]

theorem keyList_error (reason : RespondError)
    (failed : keyListResponseWithCorrectSize responder event resp = .error reason) :
    (∃ candidate ∈ candidates responder resp,
      fitKeyList responder event candidate = .error reason) ∨
    ∀ candidate ∈ candidates responder resp, fitKeyList responder event candidate = .ok none := by
  rw [keyList_eq] at failed
  rcases settle_error _ reason failed with error | nothing
  · obtain ⟨before, candidate, after, parts, _, fails⟩ :=
      (findSomeM_ends_iff _ _ _ (by simp)).mp error
    rw [parts]
    exact Or.inl ⟨candidate, List.mem_append_right before List.mem_cons_self, fails⟩
  · exact Or.inr ((findSomeM_none_iff _ _).mp nothing)

end Search

section Drains

/-- `keys.drain(start..)` panics beyond the end. -/
def drain (keys : List SecretKey) (start : Nat) : Option (List SecretKey) :=
  if start ≤ keys.length then some (keys.take start) else none

def keyListLoopChecked (actual : Nat) : (i : Nat) → KeyResponseMessage →
    Option (Except RespondError (Bytes × QueryResponseMessage Id Address))
  | 0, resp =>
    match fitKeyList responder event resp with
    | .error reason => some (.error reason)
    | .ok (some made) => some (.ok made)
    | .ok none => (drain resp.keys 0).map fun _ => .error .failTruncateResponse
  | i + 1, resp =>
    match fitKeyList responder event resp with
    | .error reason => some (.error reason)
    | .ok (some made) => some (.ok made)
    | .ok none => (drain resp.keys (i + 1)).bind fun keys =>
      keyListLoopChecked actual i { resp with keys, message := truncatedMessage (i + 1) actual }

def keyListResponseChecked (resp : KeyResponseMessage) :
    Option (Except RespondError (Bytes × QueryResponseMessage Id Address)) :=
  keyListLoopChecked responder event resp.keys.length (maxListKeys responder resp) resp

theorem keyListLoopChecked_eq (actual i : Nat) (resp : KeyResponseMessage)
    (inside : i ≤ resp.keys.length) :
    keyListLoopChecked responder event actual i resp =
      some (keyListLoop responder event actual i resp) := by
  induction i generalizing resp with
  | zero =>
    rw [keyListLoopChecked, keyListLoop]
    cases fitKeyList responder event resp with
    | error reason => rfl
    | ok fit =>
      cases fit with
      | some made => rfl
      | none => rfl
  | succ i ih =>
    rw [keyListLoopChecked, keyListLoop]
    cases fitKeyList responder event resp with
    | error reason => rfl
    | ok fit =>
      cases fit with
      | some made => rfl
      | none =>
        simp only [drain, if_pos inside, Option.bind_some]
        apply ih
        rw [List.length_take]
        omega

theorem keyListResponseChecked_eq (resp : KeyResponseMessage) :
    keyListResponseChecked responder event resp =
      some (keyListResponseWithCorrectSize responder event resp) :=
  keyListLoopChecked_eq responder event _ _ resp (Nat.min_le_right _ _)

end Drains

section Lengths

theorem truncatedMessage_mono {fewer more : Nat} (less : fewer ≤ more) (actual : Nat) :
    (truncatedMessage fewer actual).utf8ByteSize ≤ (truncatedMessage more actual).utf8ByteSize := by
  -- Only the first number differs; the texts around it are left as they are.
  have around : ∀ front middle last back : String,
      (front ++ toString fewer ++ middle ++ last ++ back).utf8ByteSize ≤
        (front ++ toString more ++ middle ++ last ++ back).utf8ByteSize := by
    intro front middle last back
    have numeral := utf8ByteSize_numeral_mono less
    simp only [String.utf8ByteSize_append]
    omega
  exact around _ _ _ _

variable {proto : Proto Id Address} (sizes : Sizes proto)

include sizes

omit [DecidableEq Id] in
theorem shortened_mono (actual : Nat) (resp : KeyResponseMessage) {fewer more : Nat}
    (less : fewer ≤ more) (small : keyResponseLen proto (shortened actual resp more) ≤ maxLen) :
    keyResponseLen proto (shortened actual resp fewer) ≤
      keyResponseLen proto (shortened actual resp more) :=
  sizes.keyResponseLen_mono (shortened actual resp fewer) (shortened actual resp more) rfl rfl
    (List.take_sublist_take_left less) (truncatedMessage_mono less actual) small

omit [DecidableEq Id] in
theorem shortened_lt (actual : Nat) (resp : KeyResponseMessage) {fewer more : Nat}
    (less : fewer < more) (inside : more ≤ resp.keys.length)
    (small : keyResponseLen proto (shortened actual resp more) ≤ maxLen) :
    keyResponseLen proto (shortened actual resp fewer) <
      keyResponseLen proto (shortened actual resp more) := by
  have rest := shortened_mono sizes actual resp less small
  refine lt_of_lt_of_le ?_ rest
  have one : resp.keys.take (fewer + 1) = resp.keys.take fewer ++ [resp.keys[fewer]] :=
    List.take_succ_eq_append_getElem (by omega)
  exact sizes.keyResponseLen_lt (shortened actual resp fewer) (shortened actual resp (fewer + 1))
    _ rfl rfl one (truncatedMessage_mono (Nat.le_succ fewer) actual) (rest.trans small)

end Lengths

section Fitting

/-- The response can be encoded within the limit. -/
def Fits (resp : KeyResponseMessage) : Prop :=
  ∃ made, fitKeyList responder event resp = .ok (some made)

instance (resp : KeyResponseMessage) : Decidable (Fits responder event resp) :=
  match tried : fitKeyList responder event resp with
  | .ok (some made) => isTrue ⟨made, tried⟩
  | .ok none => isFalse fun ⟨_, fits⟩ => by
      rw [tried] at fits
      cases fits
  | .error _ => isFalse fun ⟨_, fits⟩ => by
      rw [tried] at fits
      cases fits

theorem fits_small (resp : KeyResponseMessage) (fits : Fits responder event resp) :
    keyResponseLen responder.proto resp ≤ maxLen := by
  obtain ⟨⟨raw, qresp⟩, made⟩ := fits
  obtain ⟨kraw, encoded, _⟩ := (fitKeyList_some_iff responder event resp raw qresp).mp made
  exact encodeMessageToBytes_small _ kraw encoded

theorem not_fits_of_none (resp : KeyResponseMessage)
    (exceeds : fitKeyList responder event resp = .ok none) : ¬ Fits responder event resp := by
  rintro ⟨_, fits⟩
  rw [exceeds] at fits
  cases fits

variable (keys : KeyEncoders responder.proto) (queries : QueryEncoders responder.proto)
  (sizes : Sizes responder.proto)

include keys queries sizes

theorem fits_mono (low high : KeyResponseMessage)
    (less : keyResponseLen responder.proto low ≤ keyResponseLen responder.proto high)
    (fits : Fits responder event high) : Fits responder event low := by
  obtain ⟨⟨raw, _⟩, made⟩ := fits
  obtain ⟨kraw, encoded, rfl, within, wrapped⟩ :=
    (fitKeyList_some_iff responder event high _ _).mp made
  have small : keyResponseLen responder.proto high ≤ maxLen :=
    encodeMessageToBytes_small _ kraw encoded
  have smallResponse : queryResponseLen responder.proto (createResponse responder event kraw) ≤
    maxLen := encodeMessageToBytes_small _ raw wrapped
  obtain ⟨bytes, lowEncoded, length, _⟩ := encodeMessageToBytes_exact _
    (encodeMessage_fits keys.toFrameEncoders
      ((Message.keyResponse low : Message Id Address).encodable responder.proto)
      (keyResponse_encodes keys low trivial (less.trans small)) (less.trans small))
  have shorter : bytes.length ≤ kraw.length := by
    rw [length, encodeMessageToBytes_length _ kraw encoded]
    exact sizes.encodedMessageLen_mono less small
  have lessResponse := sizes.queryResponseLen_mono (createResponse responder event []) shorter
    smallResponse
  have lowSmall := lessResponse.trans smallResponse
  obtain ⟨lowRaw, lowWrapped, _⟩ := encodeMessageToBytes_exact _
    (encodeMessage_fits queries.toFrameEncoders
      ((Message.queryResponse (createResponse responder event bytes)).encodable responder.proto)
      (queryResponse_encodes queries _ trivial lowSmall) lowSmall)
  refine ⟨(lowRaw, createResponse responder event bytes), ?_⟩
  rw [fitKeyList_some_iff]
  refine ⟨bytes, lowEncoded, rfl, ?_, lowWrapped⟩
  exact (sizes.encodedMessageLen_mono lessResponse smallResponse).trans within

theorem fits_of_shortened_all (resp : KeyResponseMessage)
    (message : resp.message.utf8ByteSize ≤
      (truncatedMessage resp.keys.length resp.keys.length).utf8ByteSize)
    (fits : Fits responder event (shortened resp.keys.length resp resp.keys.length)) :
    Fits responder event resp := by
  refine fits_mono responder event keys queries sizes resp _ ?_ fits
  refine sizes.keyResponseLen_mono resp _ rfl rfl ?_ message (fits_small responder event _ fits)
  rw [shortened, List.take_length]

theorem fits_fewer (actual : Nat) (resp : KeyResponseMessage) {fewer more : Nat}
    (less : fewer ≤ more) (fits : Fits responder event (shortened actual resp more)) :
    Fits responder event (shortened actual resp fewer) :=
  fits_mono responder event keys queries sizes _ _
    (shortened_mono sizes actual resp less (fits_small responder event _ fits)) fits

/-- What is sent is within the limit. It is the response as it was if that fits, and
otherwise its first keys with a message that says how many of how many they are. These
are not all of them, provided that the response came with no message longer than the one
it got; a list of keys comes with none. The keys are never drained beyond their end. -/
theorem truncation_faithful (resp : KeyResponseMessage) :
    keyListResponseChecked responder event resp =
      some (keyListResponseWithCorrectSize responder event resp) ∧
    ∀ raw qresp, keyListResponseWithCorrectSize responder event resp = .ok (raw, qresp) →
      raw.length ≤ responder.queryResponseSizeLimit ∧
      encodeMessageToBytes responder.proto
        ((Message.queryResponse qresp).encodable responder.proto) = .ok raw ∧
      ∃ sent : KeyResponseMessage,
        encodeMessageToBytes responder.proto
          ((Message.keyResponse sent : Message Id Address).encodable responder.proto) =
            .ok qresp.payload ∧
        sent.keys <+: resp.keys ∧
        (Fits responder event resp → sent = resp) ∧
        (¬ Fits responder event resp →
          sent = { resp with
            keys := sent.keys
            message := truncatedMessage sent.keys.length resp.keys.length } ∧
          (resp.message.utf8ByteSize ≤
              (truncatedMessage resp.keys.length resp.keys.length).utf8ByteSize →
            sent.keys.length < resp.keys.length)) := by
  refine ⟨keyListResponseChecked_eq responder event resp, ?_⟩
  intro raw qresp returned
  rcases (keyList_ok_iff responder event resp _).mp returned with
    whole | ⟨exceeds, shown, _, most, made, _⟩
  · obtain ⟨kraw, encoded, rfl, within, wrapped⟩ :=
      (fitKeyList_some_iff responder event resp raw qresp).mp whole
    refine ⟨?_, wrapped, resp, encoded, List.prefix_rfl, fun _ => rfl, ?_⟩
    · rw [encodeMessageToBytes_length _ raw wrapped]
      exact within
    · intro not
      exact absurd ⟨_, whole⟩ not
  · obtain ⟨kraw, encoded, rfl, within, wrapped⟩ :=
      (fitKeyList_some_iff responder event _ raw qresp).mp made
    have counted : (resp.keys.take shown).length = shown := by
      rw [List.length_take]
      exact Nat.min_eq_left (most.trans (Nat.min_le_right _ _))
    refine ⟨?_, wrapped, shortened resp.keys.length resp shown, encoded, List.take_prefix _ _, ?_,
      ?_⟩
    · rw [encodeMessageToBytes_length _ raw wrapped]
      exact within
    · intro fits
      exact absurd fits (not_fits_of_none responder event resp exceeds)
    · intro not
      refine ⟨by simp only [shortened, counted], ?_⟩
      intro message
      -- With all its keys shown the response would have fitted as it was.
      by_contra all
      have every : shown = resp.keys.length := by
        have few : shown ≤ resp.keys.length := most.trans (Nat.min_le_right _ _)
        simp only [shortened, counted] at all
        omega
      rw [every] at made
      exact not (fits_of_shortened_all responder event keys queries sizes resp message ⟨_, made⟩)

end Fitting

section Samples

theorem isOk_no_error {Error Value : Type} (result : Except Error Value)
    (ok : result.isOk = true) (reason : Error) : result ≠ .error reason := by
  rintro rfl
  cases ok

theorem error_of_isOk {Error Value : Type} (result : Except Error Value)
    (failed : result.isOk = false) : ∃ reason, result = .error reason := by
  cases result with
  | error reason => exact ⟨reason, rfl⟩
  | ok value => cases failed

theorem none_of_not_fits (resp : KeyResponseMessage)
    (ok : (fitKeyList responder event resp).isOk = true) (not : ¬ Fits responder event resp) :
    fitKeyList responder event resp = .ok none := by
  rcases tried : fitKeyList responder event resp with reason | _ | made
  · exact absurd tried (isOk_no_error _ ok reason)
  · rfl
  · exact absurd ⟨made, tried⟩ not

def limited (limit : Nat) : Responder UInt8 UInt8 := { second with queryResponseSizeLimit := limit }

def keysQuery : QueryEvent UInt8 UInt8 :=
  { relayedEvent (clusterNode 1 10) with name := internalListKeys }

def listing (count : Nat) : KeyResponseMessage where
  result := true
  message := ""
  keys := (List.range count).map fun i => .filled (UInt8.ofNat i)
  primaryKey := some (.filled 0)

theorem truncation_faithful_six :
    ∃ raw qresp, keyListResponseWithCorrectSize (limited 130) keysQuery (listing 6) =
        .ok (raw, qresp) ∧ raw.length ≤ 130 ∧
      ∃ sent : KeyResponseMessage,
        encodeMessageToBytes reference
          ((Message.keyResponse sent : Message UInt8 UInt8).encodable reference) =
            .ok qresp.payload ∧
        sent.message = truncatedMessage sent.keys.length 6 ∧ sent.keys.length < 6 := by
  have returns : (keyListResponseWithCorrectSize (limited 130) keysQuery (listing 6)).isOk = true :=
    by decide +kernel
  cases returned : keyListResponseWithCorrectSize (limited 130) keysQuery (listing 6) with
  | error reason =>
    rw [returned] at returns
    cases returns
  | ok made =>
    obtain ⟨raw, qresp⟩ := made
    obtain ⟨within, _, sent, encoded, _, _, cut⟩ := (truncation_faithful (limited 130) keysQuery
      reference_laws.toKeyLaws.encoders reference_laws.toQueryLaws.encoders reference_sizes
      (listing 6)).2 raw qresp returned
    obtain ⟨said, strict⟩ := cut (by decide +kernel)
    exact ⟨raw, qresp, rfl, within, sent, encoded, congrArg KeyResponseMessage.message said,
      strict (by decide)⟩

end Samples

section Longest

/-- As many keys are shown as fit, and a failure means that none would. -/
structure NoStronger (resp : KeyResponseMessage)
    (result : Except RespondError (Bytes × QueryResponseMessage Id Address)) : Prop where
  longest : ∀ made, result = .ok made →
    fitKeyList responder event resp = .ok (some made) ∨
      ¬ Fits responder event resp ∧ ∃ shown ≤ resp.keys.length,
        fitKeyList responder event (shortened resp.keys.length resp shown) = .ok (some made) ∧
        ∀ more, shown < more → more ≤ resp.keys.length →
          ¬ Fits responder event (shortened resp.keys.length resp more)
  lastResort : ∀ reason, result = .error reason →
    ¬ Fits responder event (shortened resp.keys.length resp 0)

variable (keys : KeyEncoders responder.proto) (queries : QueryEncoders responder.proto)
  (sizes : Sizes responder.proto)

include keys queries sizes

omit keys queries in
theorem shown_differs (resp : KeyResponseMessage) (made : Bytes × QueryResponseMessage Id Address)
    {fewer more : Nat} (less : fewer < more) (inside : more ≤ resp.keys.length)
    (low : fitKeyList responder event (shortened resp.keys.length resp fewer) = .ok (some made)) :
    fitKeyList responder event (shortened resp.keys.length resp more) ≠ .ok (some made) := by
  intro high
  obtain ⟨raw, qresp⟩ := made
  obtain ⟨kraw, encoded, rfl, _⟩ := (fitKeyList_some_iff responder event _ _ _).mp low
  obtain ⟨other, again, same, _⟩ := (fitKeyList_some_iff responder event _ _ _).mp high
  have payload : kraw = other := congrArg QueryResponseMessage.payload same
  have small := fits_small responder event _ ⟨_, high⟩
  have longer : kraw.length < other.length := by
    rw [encodeMessageToBytes_length _ kraw encoded, encodeMessageToBytes_length _ other again]
    exact sizes.encodedMessageLen_lt
      (shortened_lt sizes resp.keys.length resp less inside small) small
  rw [payload] at longer
  exact lt_irrefl _ longer

variable (resp : KeyResponseMessage)

theorem noStronger_only
    (noStronger : NoStronger responder event resp
      (keyListResponseWithCorrectSize responder event resp))
    (exceeds : ¬ Fits responder event resp)
    (least : Fits responder event (shortened resp.keys.length resp 0)) :
    1 ≤ resp.keys.length ∧ Fits responder event (shortened resp.keys.length resp 1) ∧
      (keyRoom responder < resp.keys.length →
        ¬ Fits responder event (shortened resp.keys.length resp (keyRoom responder + 1))) := by
  cases returned : keyListResponseWithCorrectSize responder event resp with
  | error reason => exact absurd least (noStronger.lastResort reason returned)
  | ok made =>
    rcases (keyList_ok_iff responder event resp made).mp returned with
      whole | ⟨_, shown, some, most, fits, _⟩
    · exact absurd ⟨made, whole⟩ exceeds
    · have few : shown ≤ resp.keys.length := most.trans (Nat.min_le_right _ _)
      refine ⟨by omega, fits_fewer responder event keys queries sizes _ resp some ⟨made, fits⟩, ?_⟩
      intro capped more
      rcases noStronger.longest made returned with whole | ⟨_, longest, inside, same, above⟩
      · exact exceeds ⟨made, whole⟩
      · -- The counter has not come to the longest list that fits.
        have below : shown ≤ keyRoom responder := most.trans (Nat.min_le_left _ _)
        have beyond : keyRoom responder + 1 ≤ longest := by
          by_contra short
          exact above _ (by omega) capped more
        exact shown_differs responder event sizes resp made (by omega) inside fits same

theorem noStronger_if
    (encodes : ∀ candidate ∈ candidates responder resp, ∀ reason,
      fitKeyList responder event candidate ≠ .error reason)
    (single : 1 ≤ resp.keys.length)
    (one : Fits responder event (shortened resp.keys.length resp 1))
    (high : keyRoom responder < resp.keys.length →
      ¬ Fits responder event (shortened resp.keys.length resp (keyRoom responder + 1))) :
    NoStronger responder event resp (keyListResponseWithCorrectSize responder event resp) := by
  constructor
  · intro made returned
    rcases (keyList_ok_iff responder event resp made).mp returned with
      whole | ⟨exceeds, shown, _, most, fits, above⟩
    · exact Or.inl whole
    · refine Or.inr ⟨not_fits_of_none responder event resp exceeds, shown,
        most.trans (Nat.min_le_right _ _), fits, ?_⟩
      intro more beyond inside
      by_cases tried : more ≤ maxListKeys responder resp
      · exact not_fits_of_none responder event _ (above more beyond tried)
      · intro also
        have capped : keyRoom responder + 1 ≤ more := by
          unfold maxListKeys at tried
          omega
        exact high (by omega) (fits_fewer responder event keys queries sizes _ resp capped also)
  · intro reason failed
    rcases keyList_error responder event resp reason failed with ⟨candidate, inside, error⟩ | all
    · exact absurd error (encodes candidate inside reason)
    · -- A single key has been tried, and it fits.
      have some : 1 ≤ keyRoom responder := by
        by_contra none
        rw [Nat.lt_one_iff.mp (Nat.not_le.mp none)] at high
        exact high (by omega) one
      have inside : shortened resp.keys.length resp 1 ∈ candidates responder resp :=
        List.mem_cons_of_mem _ ((mem_shorter_iff _ _ _ _).mpr ⟨1, le_rfl, le_min some single, rfl⟩)
      exact absurd one (not_fits_of_none responder event _ (all _ inside))

omit keys queries sizes in
theorem noStronger_whole (whole : Fits responder event resp) :
    NoStronger responder event resp (keyListResponseWithCorrectSize responder event resp) := by
  obtain ⟨made, fits⟩ := whole
  rw [(keyList_ok_iff responder event resp made).mpr (Or.inl fits)]
  constructor
  · intro other returned
    cases returned
    exact Or.inl fits
  · intro reason failed
    cases failed

theorem noStronger_hopeless (least : ¬ Fits responder event (shortened resp.keys.length resp 0)) :
    NoStronger responder event resp (keyListResponseWithCorrectSize responder event resp) := by
  refine ⟨?_, fun _ _ => least⟩
  intro made returned
  rcases (keyList_ok_iff responder event resp made).mp returned with
    whole | ⟨_, shown, _, _, fits, _⟩
  · exact Or.inl whole
  · exact absurd
      (fits_fewer responder event keys queries sizes _ resp (Nat.zero_le shown) ⟨made, fits⟩) least

/-- The list is cut no shorter than needed exactly if it fits whole, or nothing fits, or a
single key fits and the counter does not start below the longest list that does. -/
theorem longest_shown_iff
    (encodes : ∀ candidate ∈ candidates responder resp, ∀ reason,
      fitKeyList responder event candidate ≠ .error reason) :
    NoStronger responder event resp (keyListResponseWithCorrectSize responder event resp) ↔
      Fits responder event resp ∨
      ¬ Fits responder event (shortened resp.keys.length resp 0) ∨
      1 ≤ resp.keys.length ∧ Fits responder event (shortened resp.keys.length resp 1) ∧
        (keyRoom responder < resp.keys.length →
          ¬ Fits responder event (shortened resp.keys.length resp (keyRoom responder + 1))) := by
  constructor
  · intro noStronger
    by_cases whole : Fits responder event resp
    · exact Or.inl whole
    · by_cases least : Fits responder event (shortened resp.keys.length resp 0)
      · exact Or.inr (Or.inr
          (noStronger_only responder event keys queries sizes resp noStronger whole least))
      · exact Or.inr (Or.inl least)
  · rintro (whole | least | ⟨single, one, high⟩)
    · exact noStronger_whole responder event resp whole
    · exact noStronger_hopeless responder event keys queries sizes resp least
    · exact noStronger_if responder event keys queries sizes resp encodes single one high

omit keys queries sizes [DecidableEq Id] in
theorem longest_shown_six :
    ¬ Fits (limited 130) keysQuery (listing 6) ∧
      NoStronger (limited 130) keysQuery (listing 6)
        (keyListResponseWithCorrectSize (limited 130) keysQuery (listing 6)) := by
  have encode : ∀ candidate ∈ candidates (limited 130) (listing 6),
      (fitKeyList (limited 130) keysQuery candidate).isOk = true := by decide +kernel
  have shown := longest_shown_iff (limited 130) keysQuery reference_laws.toKeyLaws.encoders
    reference_laws.toQueryLaws.encoders reference_sizes (listing 6) fun candidate inside =>
      isOk_no_error _ (encode candidate inside)
  exact ⟨by decide +kernel, shown.mpr (Or.inr (Or.inr ⟨by decide, by decide +kernel,
    fun _ => by decide +kernel⟩))⟩

omit keys queries sizes [DecidableEq Id] in
/-- Under a limit of 573 bytes 22 of 30 keys are shown where 23 fit, and under one of 110
bytes the query goes without an answer where one without keys fits. -/
theorem keys_withheld :
    (∃ made, keyListResponseWithCorrectSize (limited 573) keysQuery (listing 30) = .ok made ∧
      fitKeyList (limited 573) keysQuery (shortened 30 (listing 30) 22) = .ok (some made)) ∧
    ¬ Fits (limited 573) keysQuery (listing 30) ∧
    Fits (limited 573) keysQuery (shortened 30 (listing 30) 23) ∧
    (∃ reason, keyListResponseWithCorrectSize (limited 110) keysQuery (listing 6) =
      .error reason) ∧
    Fits (limited 110) keysQuery (shortened 6 (listing 6) 0) ∧
    ¬ NoStronger (limited 573) keysQuery (listing 30)
      (keyListResponseWithCorrectSize (limited 573) keysQuery (listing 30)) ∧
    ¬ NoStronger (limited 110) keysQuery (listing 6)
      (keyListResponseWithCorrectSize (limited 110) keysQuery (listing 6)) := by
  have whole : ¬ Fits (limited 573) keysQuery (listing 30) := by decide +kernel
  have more : Fits (limited 573) keysQuery (shortened 30 (listing 30) 23) := by decide +kernel
  have exceeds : fitKeyList (limited 573) keysQuery (listing 30) = .ok none :=
    none_of_not_fits _ _ _ (by decide +kernel) whole
  obtain ⟨made, fits⟩ : Fits (limited 573) keysQuery (shortened 30 (listing 30) 22) := by
    decide +kernel
  have least : Fits (limited 110) keysQuery (shortened 6 (listing 6) 0) := by decide +kernel
  have fails : (keyListResponseWithCorrectSize (limited 110) keysQuery (listing 6)).isOk = false :=
    by decide +kernel
  obtain ⟨reason, failed⟩ := error_of_isOk _ fails
  have first : maxListKeys (limited 573) (listing 30) = 22 := by decide
  refine ⟨⟨made, ?_, fits⟩, whole, more, ⟨reason, failed⟩, least, ?_, ?_⟩
  · refine (keyList_ok_iff _ _ _ _).mpr (Or.inr ⟨exceeds, 22, by decide, by decide, fits, ?_⟩)
    intro beyond above below
    omega
  · intro noStronger
    obtain ⟨_, _, capped⟩ := noStronger_only (limited 573) keysQuery
      reference_laws.toKeyLaws.encoders reference_laws.toQueryLaws.encoders reference_sizes
      (listing 30) noStronger whole
      (fits_fewer _ _ reference_laws.toKeyLaws.encoders reference_laws.toQueryLaws.encoders
        reference_sizes _ _ (Nat.zero_le 23) more)
    exact capped (by decide) more
  · intro noStronger
    exact noStronger.lastResort reason failed least

end Longest

end Serf.KeyList
