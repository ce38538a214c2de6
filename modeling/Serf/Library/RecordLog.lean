import Mathlib.Data.List.Basic

/-!
A log of self-delimiting records and the loop that replays it. A record is read
by readers put one after the other, each of which takes the bytes it needs and
fails on fewer. One turn of the loop reads one record off the front of the
stream and applies it; the stream ends well only between two records. The rules
below are what appending to such a log and cutting it off amount to.
-/

namespace Serf.Library.RecordLog

variable {State Error Byte : Type}

section Readers

variable {Value Next : Type}

abbrev Reader (Error Byte Value : Type) := List Byte → Except Error (Value × List Byte)

/-- The next `count` bytes; `eof` is reported where there are fewer. -/
def readExact (eof : Error) (count : Nat) : Reader Error Byte (List Byte) := fun bytes =>
  if count ≤ bytes.length then .ok (bytes.take count, bytes.drop count) else .error eof

def settle (result : Except Error Value) : Reader Error Byte Value := fun bytes =>
  match result with
  | .error reason => .error reason
  | .ok value => .ok (value, bytes)

def andThen (first : Reader Error Byte Value) (second : Value → Reader Error Byte Next) :
    Reader Error Byte Next := fun bytes =>
  match first bytes with
  | .error reason => .error reason
  | .ok (value, rest) => second value rest

/-- What a read takes is its own: the bytes behind do not matter, and with any
of its last bytes missing it fails. -/
def Consumes (read : Reader Error Byte Value) : Prop :=
  ∀ bytes value rest, read bytes = .ok (value, rest) →
    ∃ body, bytes = body ++ rest ∧ (∀ more, read (body ++ more) = .ok (value, more)) ∧
      ∀ cut missing, body = cut ++ missing → missing ≠ [] → ∃ reason, read cut = .error reason

theorem readExact_append (eof : Error) (taken more : List Byte) :
    readExact eof taken.length (taken ++ more) = .ok (taken, more) := by
  simp [readExact]

theorem readExact_consumes (eof : Error) (count : Nat) :
    Consumes (readExact eof count : Reader Error Byte (List Byte)) := by
  intro bytes taken rest read
  unfold readExact at read
  split at read
  · rename_i enough
    cases read
    have exact : (bytes.take count).length = count := by
      rw [List.length_take]
      omega
    refine ⟨bytes.take count, (List.take_append_drop count bytes).symm, ?_, ?_⟩
    · intro more
      have whole := readExact_append eof (bytes.take count) more
      rwa [exact] at whole
    · intro cut missing parts some
      have positive := List.length_pos_iff.mpr some
      have total := congrArg List.length parts
      rw [exact, List.length_append] at total
      exact ⟨eof, by rw [readExact, if_neg (by omega)]⟩
  · cases read

theorem settle_consumes (result : Except Error Value) :
    Consumes (settle result : Reader Error Byte Value) := by
  intro bytes value rest read
  unfold settle at read
  cases result with
  | error reason => cases read
  | ok held =>
    cases read
    refine ⟨[], rfl, fun more => rfl, ?_⟩
    intro cut missing parts some
    exact absurd (List.append_eq_nil_iff.mp parts.symm).2 some

theorem andThen_consumes (first : Reader Error Byte Value)
    (second : Value → Reader Error Byte Next) (head : Consumes first)
    (tail : ∀ value, Consumes (second value)) : Consumes (andThen first second) := by
  intro bytes final rest read
  unfold andThen at read
  cases now : first bytes with
  | error reason => simp [now] at read
  | ok pair =>
    obtain ⟨value, behind⟩ := pair
    simp only [now] at read
    obtain ⟨front, split, again, short⟩ := head bytes value behind now
    obtain ⟨back, splitBehind, againBehind, shortBehind⟩ := tail value behind final rest read
    refine ⟨front ++ back, by rw [split, splitBehind, List.append_assoc], ?_, ?_⟩
    · intro more
      simp only [andThen, List.append_assoc, again]
      exact againBehind more
    · -- The bytes run out in the first read, or in the second.
      intro cut missing parts some
      rcases List.append_eq_append_iff.mp parts with ⟨inside, longer, behind⟩ | ⟨gap, shorter, _⟩
      · obtain ⟨reason, failed⟩ := shortBehind inside missing behind some
        exact ⟨reason, by simp [andThen, longer, again, failed]⟩
      · by_cases whole : gap = []
        · subst whole
          rw [List.append_nil] at shorter
          subst shorter
          have behind : back = [] ++ missing := List.append_cancel_left parts
          obtain ⟨reason, failed⟩ := shortBehind [] missing behind some
          have exact := again []
          rw [List.append_nil] at exact
          exact ⟨reason, by simp [andThen, exact, failed]⟩
        · obtain ⟨reason, failed⟩ := short cut gap shorter whole
          exact ⟨reason, by simp [andThen, failed]⟩

end Readers

/-- One turn of the loop: `none` at the end of the stream, otherwise the state
after one record and the rest of the stream. -/
abbrev Turn (State Error Byte : Type) :=
  State → List Byte → Except Error (Option (State × List Byte))

/-- The loop, for at most `fuel` turns; `none` is a loop that has not come back. -/
def replay (turn : Turn State Error Byte) : (fuel : Nat) → State → List Byte →
    Option (Except Error State)
  | 0, _, _ => none
  | fuel + 1, state, bytes =>
    match turn state bytes with
    | .error reason => some (.error reason)
    | .ok none => some (.ok state)
    | .ok (some (next, rest)) => replay turn fuel next rest

/-- A turn ends at the empty stream only, consumes the bytes of one record and
looks at no byte behind it, and reports a record that is cut short. -/
structure SelfDelimiting (turn : Turn State Error Byte) : Prop where
  ends : ∀ state bytes, turn state bytes = .ok none ↔ bytes = []
  consumes : ∀ state next bytes rest, turn state bytes = .ok (some (next, rest)) →
    ∃ record, record ≠ [] ∧ bytes = record ++ rest ∧
      ∀ more, turn state (record ++ more) = .ok (some (next, more))
  torn : ∀ state next record, turn state record = .ok (some (next, [])) →
    ∀ cut missing, record = cut ++ missing → cut ≠ [] → missing ≠ [] →
      ∃ reason, turn state cut = .error reason

def turnOf {Record : Type} (read : Reader Error Byte Record) (apply : State → Record → State) :
    Turn State Error Byte := fun state bytes =>
  match bytes with
  | [] => .ok none
  | first :: rest =>
    match read (first :: rest) with
    | .error reason => .error reason
    | .ok (record, rest) => .ok (some (apply state record, rest))

theorem turnOf_nonempty {Record : Type} (read : Reader Error Byte Record)
    (apply : State → Record → State) (state : State) (bytes : List Byte) (some : bytes ≠ []) :
    turnOf read apply state bytes =
      match read bytes with
      | .error reason => .error reason
      | .ok (record, rest) => .ok (.some (apply state record, rest)) := by
  cases bytes with
  | nil => exact absurd rfl some
  | cons first rest => rfl

theorem turnOf_selfDelimiting {Record : Type} (read : Reader Error Byte Record)
    (apply : State → Record → State) (consumes : Consumes read)
    (needs : ∀ record, read [] ≠ .ok (record, [])) :
    SelfDelimiting (turnOf read apply) := by
  constructor
  · intro state bytes
    cases bytes with
    | nil => simp [turnOf]
    | cons first rest =>
      rw [turnOf_nonempty read apply state _ (List.cons_ne_nil first rest)]
      cases read (first :: rest) with
      | error reason => simp
      | ok pair => simp
  · intro state next bytes rest step
    have given : bytes ≠ [] := by
      rintro rfl
      cases step
    rw [turnOf_nonempty read apply state bytes given] at step
    cases now : read bytes with
    | error reason => simp [now] at step
    | ok pair =>
      obtain ⟨record, behind⟩ := pair
      simp only [now, Except.ok.injEq, Option.some.injEq, Prod.mk.injEq] at step
      obtain ⟨rfl, rfl⟩ := step
      obtain ⟨body, split, again, _⟩ := consumes bytes record behind now
      -- A record without bytes could be read off the empty stream.
      have some : body ≠ [] := by
        rintro rfl
        exact needs record (again [])
      refine ⟨body, some, split, ?_⟩
      intro more
      rw [turnOf_nonempty read apply state _ (List.append_ne_nil_of_left_ne_nil some more),
        again more]
  · intro state next record step cut missing parts cutSome some
    have given : record ≠ [] := by
      rintro rfl
      cases step
    rw [turnOf_nonempty read apply state record given] at step
    cases now : read record with
    | error reason => simp [now] at step
    | ok pair =>
      obtain ⟨held, behind⟩ := pair
      simp only [now, Except.ok.injEq, Option.some.injEq, Prod.mk.injEq] at step
      obtain ⟨_, rfl⟩ := step
      -- The cut falls inside what the readers consume, so one of them runs short.
      obtain ⟨body, split, _, short⟩ := consumes record held [] now
      rw [List.append_nil] at split
      obtain ⟨reason, failed⟩ := short cut missing (split ▸ parts) some
      exact ⟨reason, by rw [turnOf_nonempty read apply state cut cutSome, failed]⟩

inductive Reads (turn : Turn State Error Byte) : State → List Byte → State → Prop where
  | done (state : State) : Reads turn state [] state
  | next (state middle final : State) (record rest : List Byte) (some : record ≠ [])
      (now : ∀ more, turn state (record ++ more) = .ok (.some (middle, more)))
      (later : Reads turn middle rest final) : Reads turn state (record ++ rest) final

variable {turn : Turn State Error Byte}

theorem reads_append (first middle final : State) (before after : List Byte)
    (head : Reads turn first before middle) (tail : Reads turn middle after final) :
    Reads turn first (before ++ after) final := by
  induction head with
  | done state => exact tail
  | next state next last record rest some now later ih =>
    rw [List.append_assoc]
    exact .next state next final record (rest ++ after) some now (ih tail)

theorem reads_record (state next : State) (record : List Byte) (some : record ≠ [])
    (now : ∀ more, turn state (record ++ more) = .ok (.some (next, more))) :
    Reads turn state record next := by
  have one := Reads.next state next next record [] some now (.done next)
  rwa [List.append_nil] at one

theorem reads_rest (first middle final : State) (before after : List Byte)
    (head : Reads turn first before middle) (whole : Reads turn first (before ++ after) final) :
    Reads turn middle after final := by
  induction head with
  | done state => exact whole
  | next state next last record rest some now later ih =>
    apply ih
    generalize bytes : record ++ rest ++ after = all at whole
    cases whole with
    | done =>
      have empty := (List.append_eq_nil_iff.mp (List.append_eq_nil_iff.mp bytes).1).1
      exact absurd empty some
    | next _ other _ other' tail _ again behind =>
      -- Both first records are what one turn consumes.
      have one := now (rest ++ after)
      have two := again tail
      rw [← List.append_assoc, bytes, two] at one
      cases one
      exact behind

/-- The bytes are the complete records of the list. -/
inductive Lists {Record : Type} (read : Reader Error Byte Record) :
    List Byte → List Record → Prop where
  | done : Lists read [] []
  | next (bytes rest : List Byte) (record : Record) (records : List Record) (some : bytes ≠ [])
      (now : read bytes = .ok (record, rest)) (later : Lists read rest records) :
      Lists read bytes (record :: records)

theorem reads_iff_lists {Record : Type} {read : Reader Error Byte Record}
    {apply : State → Record → State} (consumes : Consumes read)
    (needs : ∀ record, read [] ≠ .ok (record, [])) (state final : State) (bytes : List Byte) :
    Reads (turnOf read apply) state bytes final ↔
      ∃ records, Lists read bytes records ∧ records.foldl apply state = final := by
  constructor
  · intro reads
    induction reads with
    | done state => exact ⟨[], .done, rfl⟩
    | next state middle final front rest some now later ih =>
      obtain ⟨records, lists, folded⟩ := ih
      have given := List.append_ne_nil_of_left_ne_nil some rest
      have step := now rest
      rw [turnOf_nonempty read apply state _ given] at step
      cases here : read (front ++ rest) with
      | error reason => simp [here] at step
      | ok pair =>
        simp only [here, Except.ok.injEq, Option.some.injEq, Prod.mk.injEq] at step
        obtain ⟨rfl, behind⟩ := step
        refine ⟨pair.1 :: records, ?_, folded⟩
        exact .next _ pair.2 pair.1 records given here (behind ▸ lists)
  · rintro ⟨records, lists, folded⟩
    induction lists generalizing state with
    | done =>
      cases folded
      exact .done state
    | next bytes rest record records some now later ih =>
      obtain ⟨body, rfl, again, _⟩ := consumes bytes record rest now
      have own : body ≠ [] := by
        rintro rfl
        exact needs record (again [])
      refine .next state (apply state record) final body rest own ?_ (ih _ folded)
      intro more
      rw [turnOf_nonempty read apply state _ (List.append_ne_nil_of_left_ne_nil own more),
        again more]

theorem torn_incomplete (state middle : State) (complete torn : List Byte)
    (reads : Reads turn state complete middle)
    (fails : torn ≠ [] → ∃ reason, turn middle torn = .error reason)
    (more rest : List Byte) (parts : torn = more ++ rest) (some : more ≠ []) (final : State) :
    ¬ Reads turn state (complete ++ more) final := by
  intro longer
  have behind := reads_rest state middle final complete more reads longer
  obtain ⟨reason, failed⟩ := fails (by
    rw [parts]
    exact List.append_ne_nil_of_left_ne_nil some rest)
  cases behind with
  | done => exact some rfl
  | next _ next _ record tail _ now _ =>
    rw [parts, List.append_assoc, now (tail ++ rest)] at failed
    cases failed

theorem reads_apply {Record : Type} (read : Reader Error Byte Record) (consumes : Consumes read)
    (apply other : State → Record → State) (state final : State) (bytes : List Byte)
    (reads : Reads (turnOf read apply) state bytes final) (start : State) :
    ∃ reached, Reads (turnOf read other) start bytes reached := by
  induction reads generalizing start with
  | done state => exact ⟨start, .done start⟩
  | next state middle final record rest some now later ih =>
    have whole := now []
    rw [List.append_nil, turnOf_nonempty read apply state record some] at whole
    cases taken : read record with
    | error reason => simp [taken] at whole
    | ok pair =>
      obtain ⟨value, behind⟩ := pair
      simp only [taken, Except.ok.injEq, Option.some.injEq, Prod.mk.injEq] at whole
      obtain ⟨_, rfl⟩ := whole
      obtain ⟨body, parts, again, _⟩ := consumes record value [] taken
      rw [List.append_nil] at parts
      subst parts
      obtain ⟨reached, tail⟩ := ih (other start value)
      refine ⟨reached, .next start (other start value) reached record rest some ?_ tail⟩
      intro more
      rw [turnOf_nonempty read other start _ (List.append_ne_nil_of_left_ne_nil some more),
        again more]

theorem replay_returns
    (shrinks : ∀ state next bytes rest, turn state bytes = .ok (some (next, rest)) →
      rest.length < bytes.length)
    (fuel : Nat) (state : State) (bytes : List Byte)
    (enough : bytes.length < fuel) : ∃ result, replay turn fuel state bytes = some result := by
  induction fuel generalizing state bytes with
  | zero => omega
  | succ fuel ih =>
    unfold replay
    cases step : turn state bytes with
    | error reason => exact ⟨_, rfl⟩
    | ok answer =>
      cases answer with
      | none => exact ⟨_, rfl⟩
      | some pair =>
        obtain ⟨next, rest⟩ := pair
        have shorter := shrinks state next bytes rest step
        exact ih next rest (by omega)

theorem replay_of_reads (ends : ∀ state, turn state [] = .ok none)
    (fuel : Nat) (state final : State) (bytes : List Byte)
    (reads : Reads turn state bytes final) (enough : bytes.length < fuel) :
    replay turn fuel state bytes = some (.ok final) := by
  induction reads generalizing fuel with
  | done state =>
    cases fuel with
    | zero => cases enough
    | succ fuel => simp [replay, ends state]
  | next state middle final record rest some now later ih =>
    cases fuel with
    | zero => cases enough
    | succ fuel =>
      have positive := List.length_pos_iff.mpr some
      rw [List.length_append] at enough
      simp only [replay, now rest]
      exact ih fuel (by omega)

inductive Reaches (turn : Turn State Error Byte) :
    State → List Byte → State → List Byte → Prop where
  | here (state : State) (bytes : List Byte) : Reaches turn state bytes state bytes
  | next (state middle final : State) (bytes rest last : List Byte)
      (now : turn state bytes = .ok (some (middle, rest)))
      (later : Reaches turn middle rest final last) : Reaches turn state bytes final last

theorem reaches_invariant (holds : State → List Byte → Prop)
    (step : ∀ state next bytes rest, holds state bytes →
      turn state bytes = .ok (some (next, rest)) → holds next rest)
    (state final : State) (bytes rest : List Byte) (reached : Reaches turn state bytes final rest)
    (start : holds state bytes) : holds final rest := by
  induction reached with
  | here state bytes => exact start
  | next state middle final bytes rest last now later ih =>
    exact ih (step state middle bytes rest start now)

theorem reaches_of_answer (fuel : Nat) (state : State) (bytes : List Byte)
    (answer : Except Error State) (replayed : replay turn fuel state bytes = some answer) :
    ∃ final rest, Reaches turn state bytes final rest ∧
      turn final rest = answer.bind (fun _ => .ok none) ∧
      ∀ last, answer = .ok last → last = final := by
  induction fuel generalizing state bytes with
  | zero => cases replayed
  | succ fuel ih =>
    unfold replay at replayed
    cases step : turn state bytes with
    | error reason =>
      simp only [step, Option.some.injEq] at replayed
      subst replayed
      exact ⟨state, bytes, .here state bytes, step, fun _ impossible => by cases impossible⟩
    | ok found =>
      cases found with
      | none =>
        simp only [step, Option.some.injEq] at replayed
        subst replayed
        exact ⟨state, bytes, .here state bytes, step, fun _ same => (Except.ok.inj same).symm⟩
      | some pair =>
        obtain ⟨next, rest⟩ := pair
        simp only [step] at replayed
        obtain ⟨final, last, reached, ended⟩ := ih next rest replayed
        exact ⟨final, last, .next state next final bytes rest last step reached, ended⟩

theorem reaches_of_replay (fuel : Nat) (state final : State) (bytes : List Byte)
    (replayed : replay turn fuel state bytes = some (.ok final)) :
    ∃ rest, Reaches turn state bytes final rest ∧ turn final rest = .ok none := by
  obtain ⟨last, rest, reached, ended, same⟩ := reaches_of_answer fuel state bytes _ replayed
  cases same final rfl
  exact ⟨rest, reached, ended⟩

theorem reaches_of_failure (fuel : Nat) (state : State) (bytes : List Byte) (reason : Error)
    (failed : replay turn fuel state bytes = some (.error reason)) :
    ∃ final rest, Reaches turn state bytes final rest ∧ turn final rest = .error reason := by
  obtain ⟨final, rest, reached, ended, _⟩ := reaches_of_answer fuel state bytes _ failed
  exact ⟨final, rest, reached, ended⟩

theorem failure_of_reaches
    (shrinks : ∀ state next bytes rest, turn state bytes = .ok (some (next, rest)) →
      rest.length < bytes.length)
    (state final : State) (bytes rest : List Byte) (reason : Error)
    (reached : Reaches turn state bytes final rest) (fails : turn final rest = .error reason)
    (fuel : Nat) (enough : bytes.length < fuel) :
    replay turn fuel state bytes = some (.error reason) := by
  induction reached generalizing fuel with
  | here state bytes =>
    cases fuel with
    | zero => cases enough
    | succ fuel => simp [replay, fails]
  | next state middle final bytes rest last now later ih =>
    cases fuel with
    | zero => cases enough
    | succ fuel =>
      have shorter := shrinks state middle bytes rest now
      simp only [replay, now]
      exact ih fails fuel (by omega)

section Laws

variable (laws : SelfDelimiting turn)

include laws

theorem SelfDelimiting.ended (state : State) : turn state [] = .ok none :=
  (laws.ends state []).mpr rfl

theorem reads_of_reaches (state final : State) (bytes rest : List Byte)
    (reached : Reaches turn state bytes final rest) (ended : turn final rest = .ok none) :
    Reads turn state bytes final := by
  induction reached with
  | here state bytes =>
    cases (laws.ends state bytes).mp ended
    exact .done state
  | next state middle final bytes rest last now later ih =>
    obtain ⟨record, some, rfl, read⟩ := laws.consumes state middle bytes rest now
    exact .next state middle final record rest some read (ih ended)

theorem replay_iff (fuel : Nat) (state final : State) (bytes : List Byte)
    (enough : bytes.length < fuel) :
    replay turn fuel state bytes = some (.ok final) ↔ Reads turn state bytes final := by
  constructor
  · intro replayed
    obtain ⟨rest, reached, ended⟩ := reaches_of_replay fuel state final bytes replayed
    exact reads_of_reaches laws state final bytes rest reached ended
  · intro reads
    exact replay_of_reads laws.ended fuel state final bytes reads enough

/-- A log cut off anywhere: the complete records before the cut, and behind
them nothing, or the front of one more record on which the loop fails. -/
theorem reads_cut (state final : State) (bytes cut missing : List Byte)
    (reads : Reads turn state bytes final) (split : bytes = cut ++ missing) :
    ∃ complete torn middle, cut = complete ++ torn ∧ Reads turn state complete middle ∧
      (torn ≠ [] → ∃ reason, turn middle torn = .error reason) := by
  induction reads generalizing cut with
  | done state =>
    have empty : cut = [] := (List.append_eq_nil_iff.mp split.symm).1
    exact ⟨[], [], state, empty, .done state, fun some => absurd rfl some⟩
  | next state middle final record rest some now later ih =>
    rcases List.append_eq_append_iff.mp split with
      ⟨more, longer, behind⟩ | ⟨front, shorter, behind⟩
    · -- The cut lies behind this record.
      obtain ⟨complete, torn, reached, parts, head, tail⟩ := ih more behind
      refine ⟨record ++ complete, torn, reached, ?_, ?_, tail⟩
      · rw [longer, parts, List.append_assoc]
      · exact .next state middle reached record complete some now head
    · by_cases whole : front = []
      · -- It lies right at its end.
        subst whole
        rw [List.append_nil] at shorter
        subst shorter
        exact ⟨record, [], middle, (List.append_nil record).symm,
          reads_record state middle record some now, fun some => absurd rfl some⟩
      · refine ⟨[], cut, state, rfl, .done state, ?_⟩
        intro cutSome
        have exact := now []
        rw [List.append_nil] at exact
        exact laws.torn state middle record exact cut front shorter cutSome whole

theorem replay_cut (fuel : Nat) (state middle : State) (complete torn : List Byte)
    (reads : Reads turn state complete middle)
    (fails : torn ≠ [] → ∃ reason, turn middle torn = .error reason)
    (enough : (complete ++ torn).length < fuel) :
    (torn = [] ∧ replay turn fuel state (complete ++ torn) = some (.ok middle)) ∨
    (torn ≠ [] ∧ ∃ reason, replay turn fuel state (complete ++ torn) = some (.error reason)) := by
  induction reads generalizing fuel with
  | done state =>
    cases fuel with
    | zero => cases enough
    | succ fuel =>
      by_cases empty : torn = []
      · refine Or.inl ⟨empty, ?_⟩
        simp [replay, empty, laws.ended state]
      · obtain ⟨reason, failed⟩ := fails empty
        exact Or.inr ⟨empty, reason, by simp [replay, failed]⟩
  | next state middle final record rest some now later ih =>
    cases fuel with
    | zero => cases enough
    | succ fuel =>
      have positive := List.length_pos_iff.mpr some
      simp only [List.length_append] at enough
      simp only [List.append_assoc, replay, now (rest ++ torn)]
      exact ih fuel fails (by rw [List.length_append]; omega)

end Laws

end Serf.Library.RecordLog
