import Serf.QueryAnswers

/-!
The handlers of the key queries. The queries that install, use and remove a key carry a
request, which is decoded and applied to the keyring; if a keyring file is configured,
the keyring is written to it. Each exit of a handler hands one response to
`send_key_response`. What the operations on the keyring and the writing of the file come
to is given from outside. `unwrap` on the key of a request that has none is a panic, and
the query goes without an answer.
-/

namespace Serf.KeyHandlers

open Library.Encoding QueryHandler QueryAnswers Wire

variable {Id Address Ring : Type} [DecidableEq Id]

structure KeyringOps (Ring : Type) where
  insert : Ring → SecretKey → Ring
  useKey : Ring → SecretKey → Except String Ring
  remove : Ring → SecretKey → Except String Ring
  keys : Ring → List SecretKey
  primaryKey : Ring → SecretKey

structure KeyNode (Ring : Type) where
  encryptionEnabled : Bool
  keyring : Option Ring
  keyringFile : Option String

/-- What a handler leaves: the keyring, and what it has handed to `send_key_response`. -/
structure KeyHandled (Ring : Type) where
  keyring : Option Ring
  sent : List KeyResponseMessage

def defaultResponse : KeyResponseMessage := ⟨false, "", [], none⟩

section Handlers

variable (proto : Proto Id Address) (ops : KeyringOps Ring)
  (write : String → List SecretKey → Except String Unit)

def writeKeyringFile (node : KeyNode Ring) : Except String Unit :=
  match node.keyringFile, node.keyring with
  | some path, some ring => write path (ops.keys ring)
  | _, _ => .ok ()

/-- The body that the handlers of the three requests share. They look for a path before
they write the file; without one there is nothing to write. A request is decoded whole,
nothing of it is left to convert. -/
def handleKeyRequest (operation : Ring → SecretKey → Except String Ring) (payload : Bytes)
    (node : KeyNode Ring) : Option (KeyHandled Ring) :=
  match decodeMessage proto payload with
  | .ok (.keyRequest (.ok req)) =>
    if !node.encryptionEnabled then
      some ⟨node.keyring, [{ defaultResponse with message := "encryption is not enabled" }]⟩
    else
      match node.keyring with
      | none => some ⟨none,
          [{ defaultResponse with message := "encryption enabled but keyring is empty" }]⟩
      | some ring =>
        match req.key with
        -- `req.key.unwrap()`
        | none => none
        | some key =>
          match operation ring key with
          | .error reason => some ⟨some ring, [{ defaultResponse with message := reason }]⟩
          | .ok changed =>
            match writeKeyringFile ops write { node with keyring := some changed } with
            | .error reason =>
              some ⟨some changed, [{ defaultResponse with message := reason }]⟩
            | .ok () => some ⟨some changed, [{ defaultResponse with result := true }]⟩
  | .ok _ => some ⟨node.keyring, [defaultResponse]⟩
  | .error (.error _) => some ⟨node.keyring, [defaultResponse]⟩
  | .error .panic => none
  | .error .stuck => none

def handleInstallKey : Bytes → KeyNode Ring → Option (KeyHandled Ring) :=
  handleKeyRequest proto ops write fun ring key => .ok (ops.insert ring key)

def handleUseKey : Bytes → KeyNode Ring → Option (KeyHandled Ring) :=
  handleKeyRequest proto ops write ops.useKey

def handleRemoveKey : Bytes → KeyNode Ring → Option (KeyHandled Ring) :=
  handleKeyRequest proto ops write ops.remove

def handleListKeys (node : KeyNode Ring) : KeyHandled Ring :=
  if !node.encryptionEnabled then
    ⟨node.keyring, [{ defaultResponse with message := "encryption is not enabled" }]⟩
  else
    match node.keyring with
    | none =>
      ⟨none, [{ defaultResponse with message := "encryption enabled but keyring is empty" }]⟩
    | some ring => ⟨some ring,
        [{ defaultResponse with
          keys := ops.keys ring, primaryKey := some (ops.primaryKey ring), result := true }]⟩

theorem handleListKeys_sends (node : KeyNode Ring) :
    ∃ response, (handleListKeys ops node).sent = [response] ∧
      (response.keys = [] ∨ response.message = "") := by
  unfold handleListKeys
  split
  · exact ⟨_, rfl, Or.inl rfl⟩
  · cases node.keyring with
    | none => exact ⟨_, rfl, Or.inl rfl⟩
    | some ring => exact ⟨_, rfl, Or.inr rfl⟩

/-- The queries with a request. -/
inductive KeyChange where
  | installKey
  | useKey
  | removeKey

/-- The arms of `handle_query` for them. -/
def handleKeyChange : KeyChange → Bytes → KeyNode Ring → Option (KeyHandled Ring)
  | .installKey => handleInstallKey proto ops write
  | .useKey => handleUseKey proto ops write
  | .removeKey => handleRemoveKey proto ops write

/-- What the query does to the keyring; installing a key cannot fail. -/
def KeyChange.operation : KeyChange → Ring → SecretKey → Except String Ring
  | .installKey => fun ring key => .ok (ops.insert ring key)
  | .useKey => ops.useKey
  | .removeKey => ops.remove

theorem handleKeyChange_eq (change : KeyChange) :
    handleKeyChange proto ops write change =
      handleKeyRequest proto ops write (change.operation ops) := by
  cases change with
  | installKey => rfl
  | useKey => rfl
  | removeKey => rfl

end Handlers

section Answered

variable (proto : Proto Id Address) (ops : KeyringOps Ring)
  (write : String → List SecretKey → Except String Unit)

def Requests (payload : Bytes) (key : Option SecretKey) : Prop :=
  decodeMessage proto payload = .ok (.keyRequest (.ok ⟨key⟩))

structure Applies (operation : Ring → SecretKey → Except String Ring) (payload : Bytes)
    (node : KeyNode Ring) (changed : Ring) : Prop where
  enabled : node.encryptionEnabled = true
  applied : ∃ key ring, Requests proto payload (some key) ∧ node.keyring = some ring ∧
    operation ring key = .ok changed

variable (operation : Ring → SecretKey → Except String Ring) (payload : Bytes) (node : KeyNode Ring)

theorem handleKeyRequest_other (decodes : Returns (decodeMessage proto payload))
    (other : ∀ key, ¬ Requests proto payload key) :
    handleKeyRequest proto ops write operation payload node =
      some ⟨node.keyring, [defaultResponse]⟩ := by
  unfold handleKeyRequest
  split
  · rename_i req decoded
    exact absurd decoded (other req.key)
  · rfl
  · rfl
  · rename_i panicked
    rw [panicked] at decodes
    exact decodes.elim
  · rename_i stuck
    rw [stuck] at decodes
    exact decodes.elim

section Request

variable {payload node} {key : Option SecretKey} (request : Requests proto payload key)

include request

theorem handleKeyRequest_closed (closed : node.encryptionEnabled = false ∨ node.keyring = none) :
    ∃ message, handleKeyRequest proto ops write operation payload node =
      some ⟨node.keyring, [{ defaultResponse with message }]⟩ := by
  unfold handleKeyRequest
  rw [request]
  rcases closed with off | none
  · simp only [off, Bool.not_false, if_true]
    exact ⟨_, rfl⟩
  · simp only [none]
    split
    · exact ⟨_, rfl⟩
    · exact ⟨_, rfl⟩

variable (enabled : node.encryptionEnabled = true) {ring : Ring} (held : node.keyring = some ring)

include enabled held

theorem handleKeyRequest_open :
    handleKeyRequest proto ops write operation payload node =
      key.bind fun key => some (match operation ring key with
        | .error reason => ⟨some ring, [{ defaultResponse with message := reason }]⟩
        | .ok changed => ⟨some changed,
            [match writeKeyringFile ops write { node with keyring := some changed } with
              | .error reason => { defaultResponse with message := reason }
              | .ok () => { defaultResponse with result := true }]⟩) := by
  unfold handleKeyRequest
  rw [request]
  simp only [enabled, held, Bool.not_true, Bool.false_eq_true, if_false]
  cases key with
  | none => rfl
  | some key =>
    cases done : operation ring key with
    | error reason => simp only [done, Option.bind_some]
    | ok changed =>
      simp only [done, Option.bind_some]
      cases writeKeyringFile ops write ⟨true, some changed, node.keyringFile⟩ with
      | error reason => rfl
      | ok _ => rfl

end Request

theorem handleKeyRequest_keyed {key : SecretKey} {ring : Ring}
    (request : Requests proto payload (some key)) (enabled : node.encryptionEnabled = true)
    (held : node.keyring = some ring) :
    (∃ response, handleKeyRequest proto ops write operation payload node =
        some ⟨node.keyring, [response]⟩ ∧ response.result = false ∧
      ∀ changed, ¬ Applies proto operation payload node changed) ∨
    ∃ changed response, Applies proto operation payload node changed ∧
      handleKeyRequest proto ops write operation payload node =
        some ⟨some changed, [response]⟩ ∧
      (response.result = true ↔
        writeKeyringFile ops write { node with keyring := some changed } = .ok ()) := by
  have handled := handleKeyRequest_open proto ops write operation request enabled held
  rw [Option.bind_some] at handled
  cases done : operation ring key with
  | error reason =>
    simp only [done] at handled
    rw [← held] at handled
    refine Or.inl ⟨_, handled, rfl, ?_⟩
    rintro changed ⟨_, other, found, requested, also, applied⟩
    rw [held] at also
    cases also
    rw [Requests, request] at requested
    cases requested
    rw [done] at applied
    cases applied
  | ok changed =>
    simp only [done] at handled
    refine Or.inr ⟨changed, _, ⟨enabled, key, ring, request, held, done⟩, handled, ?_⟩
    cases writeKeyringFile ops write { node with keyring := some changed } with
    | error reason => simp [defaultResponse]
    | ok _ => simp

theorem handleKeyRequest_cases (decodes : Returns (decodeMessage proto payload)) :
    (handleKeyRequest proto ops write operation payload node = none ∧
      Requests proto payload none ∧ node.encryptionEnabled = true ∧ node.keyring.isSome) ∨
    (∃ response, handleKeyRequest proto ops write operation payload node =
        some ⟨node.keyring, [response]⟩ ∧ response.result = false ∧
      ∀ changed, ¬ Applies proto operation payload node changed) ∨
    ∃ changed response, Applies proto operation payload node changed ∧
      handleKeyRequest proto ops write operation payload node =
        some ⟨some changed, [response]⟩ ∧
      (response.result = true ↔
        writeKeyringFile ops write { node with keyring := some changed } = .ok ()) := by
  by_cases request : ∃ key, Requests proto payload key
  · obtain ⟨key, request⟩ := request
    by_cases closed : node.encryptionEnabled = false ∨ node.keyring = none
    · obtain ⟨message, handled⟩ :=
        handleKeyRequest_closed proto ops write operation request closed
      refine Or.inr (Or.inl ⟨_, handled, rfl, ?_⟩)
      rintro changed ⟨enabled, _, ring, _, held, _⟩
      rcases closed with off | none
      · rw [off] at enabled
        cases enabled
      · rw [none] at held
        cases held
    · obtain ⟨on, present⟩ := not_or.mp closed
      have enabled := Bool.not_eq_false _ ▸ on
      obtain ⟨ring, held⟩ := Option.ne_none_iff_exists'.mp present
      cases key with
      | none =>
        have handled := handleKeyRequest_open proto ops write operation request enabled held
        exact Or.inl ⟨handled, request, enabled, by rw [held]; rfl⟩
      | some key =>
        exact Or.inr
          (handleKeyRequest_keyed proto ops write operation payload node request enabled held)
  · have other : ∀ key, ¬ Requests proto payload key := fun key held => request ⟨key, held⟩
    refine Or.inr (Or.inl ⟨defaultResponse,
      handleKeyRequest_other proto ops write operation payload node decodes other, rfl, ?_⟩)
    rintro changed ⟨_, key, _, requested, _⟩
    exact other (some key) requested

theorem written_iff (changed : Ring) :
    writeKeyringFile ops write { node with keyring := some changed } = .ok () ↔
      ∀ path, node.keyringFile = some path → write path (ops.keys changed) = .ok () := by
  unfold writeKeyringFile
  cases node.keyringFile with
  | none => simp
  | some path => simp

/-- A key query gets exactly one response, which says whether the request was decoded,
applied and kept, exactly if it is not a request without a key that comes to a keyring. -/
theorem key_query_answered_iff (change : KeyChange)
    (decodes : Returns (decodeMessage proto payload)) :
    (∃ handled response, handleKeyChange proto ops write change payload node = some handled ∧
      handled.sent = [response] ∧
      (response.result = true ↔ ∃ key ring changed,
        decodeMessage proto payload = .ok (.keyRequest (.ok ⟨some key⟩)) ∧
        node.encryptionEnabled = true ∧ node.keyring = some ring ∧
        change.operation ops ring key = .ok changed ∧
        ∀ path, node.keyringFile = some path → write path (ops.keys changed) = .ok ())) ↔
    ¬ (decodeMessage proto payload = .ok (.keyRequest (.ok ⟨none⟩)) ∧
      node.encryptionEnabled = true ∧ node.keyring.isSome) := by
  rw [handleKeyChange_eq]
  constructor
  · rintro ⟨handled, _, found, _⟩ ⟨keyless, enabled, present⟩
    obtain ⟨ring, held⟩ := Option.isSome_iff_exists.mp present
    rw [handleKeyRequest_open proto ops write _ keyless enabled held] at found
    cases found
  · intro keyed
    rcases handleKeyRequest_cases proto ops write (change.operation ops) payload node decodes with
      ⟨_, keyless⟩ | ⟨response, handled, refused, never⟩ |
        ⟨changed, response, applies, handled, kept⟩
    · exact absurd keyless keyed
    · refine ⟨_, response, handled, rfl, ?_⟩
      rw [refused]
      constructor
      · intro impossible
        cases impossible
      · rintro ⟨key, ring, changed, decoded, enabled, held, applied, _⟩
        exact absurd ⟨enabled, key, ring, decoded, held, applied⟩ (never changed)
    · refine ⟨_, response, handled, rfl, ?_⟩
      obtain ⟨enabled, key, ring, requested, held, applied⟩ := applies
      rw [kept, written_iff]
      constructor
      · intro written
        exact ⟨key, ring, changed, requested, enabled, held, applied, written⟩
      · rintro ⟨_, _, other, decoded, _, also, again, written⟩
        rw [Requests, decoded] at requested
        cases requested
        rw [held] at also
        cases also
        rw [applied] at again
        cases again
        exact written

end Answered

section Samples

def listedKeys : KeyringOps (SecretKey × List SecretKey) where
  insert ring key := if key = ring.1 ∨ key ∈ ring.2 then ring else (ring.1, ring.2 ++ [key])
  useKey ring key :=
    if key = ring.1 then .ok ring
    else if key ∈ ring.2 then .ok (key, ring.2.erase key ++ [ring.1])
    else .error "secret key is not in the keyring"
  remove ring key :=
    if key = ring.1 then .error "removing the primary key is not allowed"
    else .ok (ring.1, ring.2.erase key)
  keys ring := ring.1 :: ring.2
  primaryKey ring := ring.1

def encrypted : KeyNode (SecretKey × List SecretKey) := ⟨true, some (.filled 7, []), none⟩

def installRequest : Bytes := [25, 20, 17, 18, 17, 16] ++ List.replicate 16 8

theorem key_query_answered_install :
    ∃ handled response, handleKeyChange reference listedKeys (fun _ _ => .ok ()) .installKey
        installRequest encrypted = some handled ∧
      handled.sent = [response] ∧ response.result = true := by
  have decoded : decodeMessage reference installRequest =
      .ok (.keyRequest (.ok ⟨some (.filled 8)⟩)) := rfl
  obtain ⟨handled, response, found, sent, result⟩ :=
    (key_query_answered_iff reference listedKeys (fun _ _ => .ok ()) installRequest encrypted
      .installKey (by decide)).mpr (by
        rintro ⟨keyless, _⟩
        rw [decoded] at keyless
        cases keyless)
  exact ⟨handled, response, found, sent, result.mpr
    ⟨.filled 8, _, _, decoded, rfl, rfl, rfl, fun _ _ => rfl⟩⟩

theorem keyless_panics :
    decodeMessage reference [25, 0] = .ok (.keyRequest (.ok ⟨none⟩)) ∧
      ∀ change, handleKeyChange reference listedKeys (fun _ _ => .ok ()) change [25, 0] encrypted =
        none := by
  refine ⟨rfl, ?_⟩
  intro change
  cases change with
  | installKey => rfl
  | useKey => rfl
  | removeKey => rfl

end Samples

end Serf.KeyHandlers
