import TrustedHtml.Proofs.Rendered
import TrustedHtml.Url.Web

/-!
# Writing into a Sink

`Program.render` lists the writes of a program, and `Rendering.deliver` gives the list to a sink.
A program can also be carried out as it writes: every chunk offers its text to the sink when its
turn has come, the first refusal ends whatever surrounds the chunk, and the numbers of chunks are
attached to the failure on the way out. `Program.write` does that. It keeps a ledger of all
writes that the sink was offered, with the steps to their chunks, which are handed down on the
way in; so what a failure tells can be compared with where it arose.

Both ways are the same (`Program.write_eq_into`). In the list a refused write is an index, and
everything about a sink with a limit follows from where the list is cut.

## Main definitions

* `Sink`, `Writing`: what has become of a sink, and operations that write.
* `Program.write`, `Template.write`: a program is carried out as it writes.
* `Program.Leads`: steps lead to a chunk.

## Main results

* `Program.write_eq_into`: **writing is delivering what is listed.**
* `Template.render_limited`: **a sink that refuses a write cuts the output there.**
-/

namespace TrustedHtml

/-! ### Sinks -/

/-- A sink with what it has accepted, and the ledger of all writes that it was offered. -/
structure Sink where
  limit : Option ℕ
  accepted : String
  /-- In order, the writes that were refused included. -/
  offered : List Write

/-- An operation that writes. What the sink has accepted stays, also after a failure. -/
abbrev Writing := EStateM Abort Sink Unit

/-- A sink that has accepted nothing yet. -/
def Sink.new (limit : Option ℕ) : Sink := ⟨limit, "", []⟩

namespace Writing

/-- Offer a write, which is accepted as a whole or refused. A refusal is described by the steps
behind the first `depth`. -/
def offer (depth : ℕ) (w : Write) : Writing := fun k =>
  if w.fits k.limit k.accepted.utf8ByteSize then
    .ok () ⟨k.limit, k.accepted ++ w.text, k.offered ++ [w]⟩
  else .error (.failure ⟨.sinkClosed, w.steps.drop depth⟩) { k with offered := k.offered ++ [w] }

/-- Write a text at a place. Of the failure nothing is known yet but its cause. -/
def text (place : List Step) (text : String) : Writing :=
  offer place.length ⟨text, place⟩

/-- Describe a failure as having arisen at `step`. -/
def within (step : Step) (act : Writing) : Writing := fun k =>
  match act k with
  | .ok a k => .ok a k
  | .error e k => .error (e.within step) k

/-- Visit the rows of a source. A visit that fails is the last one. -/
def each {α : Type} (stream : RowStream α) (visit : α → Writing) : Writing := do
  forM stream.rows visit
  match stream.failure with
  | some f => throw (.failure f)
  | none => pure ()

end Writing

/-! ### Carrying out a program as it writes -/

namespace Program

mutual

/-- Carry out a chunk, to which the steps `place` lead. -/
def writeChunk (place : List Step) : Chunk → ValueSet → Writing
  | .static text, _ => .text place text
  | .scalar v reflow, vs =>
      match vs.getScalar v with
      | .error m => throw (.misuse m)
      | .ok text =>
          match reflow with
          | none => .text place text
          | some r =>
              match r.apply text with
              | .ok filled => .text place filled
              | .error o => throw (.overflow o)
  | .subsection t program, vs =>
      match vs.getStream t with
      | .error m => throw (.misuse m)
      | .ok stream => Writing.each stream fun row => writeFrom place 1 program.length program row
  | .switch cases default, vs =>
      match writeCases place cases vs with
      | some chosen => chosen
      | none => writeOutput place default vs

/-- Carry out chunks, the first of which has the given number. -/
def writeFrom (place : List Step) (number count : ℕ) : List Chunk → ValueSet → Writing
  | [], _ => pure ()
  | chunk :: rest, vs => do
      (writeChunk (place ++ [.chunk number count]) chunk vs).within (.chunk number count)
      writeFrom place (number + 1) count rest vs

/-- Carry out the first case that holds, if one does. -/
def writeCases (place : List Step) :
    List (Condition × Option (List Chunk)) → ValueSet → Option Writing
  | [], _ => none
  | (condition, output) :: rest, vs =>
      if condition vs then some (writeOutput place output vs) else writeCases place rest vs

/-- Carry out the program of an alternative, if it has one. -/
def writeOutput (place : List Step) : Option (List Chunk) → ValueSet → Writing
  | none, _ => pure ()
  | some program, vs => writeFrom place 1 program.length program vs

end

/-- Carry out a program as it writes. -/
def write (program : Program) (vs : ValueSet) : Writing :=
  writeFrom [] 1 program.length program vs

end Program

/-- Write values, which have to be made for the schema of the template. -/
def Template.write (t : Template) (vs : ValueSet) : Writing :=
  if vs.schema.id = t.schema.id then t.program.write vs
  else throw (.misuse (.foreignValues vs.schema.id t.schema.id))

/-! ### What is listed can be written -/

/-- A write with the steps that lead to where its own steps begin. -/
def Write.under (place : List Step) (w : Write) : Write :=
  { w with steps := place ++ w.steps }

/-- Write what is listed, at a place. -/
def Rendering.into (place : List Step) (r : Rendering) : Writing := do
  forM r.writes fun w => Writing.offer place.length (w.under place)
  match r.stopped with
  | some e => throw e
  | none => pure ()

namespace Writing

variable {act : Writing} {step : Step} {e : Abort}

/-- Nothing comes after a failure. -/
theorem throw_bind (k : Unit → Writing) : (throw e >>= k : Writing) = throw e := rfl

/-- Operations in order are described one by one. -/
theorem within_bind (k : Unit → Writing) :
    within step (act >>= k) = (do act.within step; (k ()).within step) := by
  funext s
  simp only [within, Bind.bind, EStateM.bind]
  cases act s <;> rfl

/-- Writes in order are described one by one. -/
theorem within_forM {α : Type} (visit : α → Writing) (entries : List α) :
    within step (forM entries visit) = forM entries fun a => (visit a).within step := by
  induction entries with
  | nil => rfl
  | cons a rest ih => rw [List.forM_cons, List.forM_cons, within_bind, ih]

/-- A refusal is described by one more step. -/
theorem within_offer {depth : ℕ} {w : Write}
    (h : w.steps.drop depth = step :: w.steps.drop (depth + 1)) :
    within step (offer (depth + 1) w) = offer depth w := by
  funext k
  simp only [within, offer, h]
  cases w.fits k.limit k.accepted.utf8ByteSize <;> rfl

end Writing

namespace Rendering

variable {place : List Step}

/-- An end without a write. -/
theorem into_stop (e : Abort) : (stop e).into place = throw e := rfl

/-- A single write. -/
theorem into_write (text : String) : (write text).into place = .text place text := by
  simp [into, write, Writing.text, Write.under]

/-- One rendering after the other. -/
theorem into_append (a b : Rendering) :
    (a.append b).into place = (do a.into place; b.into place) := by
  obtain ⟨writes, _ | e⟩ := a
  · simp [append, into, List.forM_append]
  · simp only [append, into, bind_assoc, Writing.throw_bind]

/-- What comes from a step is written at that step. -/
theorem into_within (step : Step) (r : Rendering) :
    (r.within step).into place = (r.into (place ++ [step])).within step := by
  have hsteps : ∀ w : Write, Write.under place { w with steps := step :: w.steps } =
      w.under (place ++ [step]) := fun w => by
    rw [Write.under, Write.under, List.append_assoc]
    rfl
  have hoffer : ∀ w : Write, (Writing.offer (place ++ [step]).length
      (w.under (place ++ [step]))).within step =
        Writing.offer place.length (w.under (place ++ [step])) := fun w => by
    rw [List.length_append, List.length_singleton]
    refine Writing.within_offer ?_
    simp [Write.under, List.drop_append]
  rw [into, into, Writing.within_bind, Writing.within_forM]
  simp only [hoffer, within, List.forM_map, hsteps]
  cases r.stopped <;> rfl

/-- Rows one after the other, and what is behind them. -/
theorem into_rows (rows : List ValueSet) (render : ValueSet → Rendering) (ending : Rendering) :
    (rows.foldr (fun row later => (render row).append later) ending).into place = (do
      forM rows fun row => (render row).into place
      ending.into place) := by
  induction rows with
  | nil => rfl
  | cons row rest ih =>
      rw [List.foldr_cons, into_append, ih, List.forM_cons, bind_assoc]

end Rendering

namespace Program

mutual

/-- Writing a chunk is delivering what is listed for it. -/
theorem writeChunk_eq_into (place : List Step) : ∀ (chunk : Chunk) (vs : ValueSet),
    writeChunk place chunk vs = (renderChunk chunk vs).into place
  | .static text, vs => by
      rw [writeChunk, renderChunk, Rendering.into_write]
  | .scalar v reflow, vs => by
      rw [writeChunk, renderChunk]
      cases vs.getScalar v with
      | error m => exact (Rendering.into_stop _).symm
      | ok text =>
          cases reflow with
          | none => exact (Rendering.into_write text).symm
          | some r =>
              dsimp only
              cases r.apply text with
              | error o => exact (Rendering.into_stop _).symm
              | ok filled => exact (Rendering.into_write filled).symm
  | .subsection t program, vs => by
      rw [writeChunk, renderChunk]
      cases vs.getStream t with
      | error m => exact (Rendering.into_stop _).symm
      | ok stream =>
          have hrows : ∀ row, writeFrom place 1 program.length program row =
              (renderFrom 1 program.length program row).into place :=
            writeFrom_eq_into place 1 program.length program
          dsimp only
          rw [Writing.each, Rendering.into_rows]
          simp only [hrows]
          cases stream.failure <;> rfl
  | .switch cases default, vs => by
      rw [writeChunk, renderChunk, writeCases_eq_into place cases vs]
      cases renderCases cases vs with
      | none => exact writeOutput_eq_into place default vs
      | some chosen => rfl

/-- Writing chunks is delivering what is listed for them. -/
theorem writeFrom_eq_into (place : List Step) (number count : ℕ) :
    ∀ (program : List Chunk) (vs : ValueSet),
      writeFrom place number count program vs = (renderFrom number count program vs).into place
  | [], _ => rfl
  | chunk :: rest, vs => by
      rw [writeFrom, renderFrom, Rendering.into_append, Rendering.into_within,
        writeChunk_eq_into, writeFrom_eq_into place (number + 1) count rest vs]

/-- Writing the case that is chosen is delivering what is listed for it. -/
theorem writeCases_eq_into (place : List Step) :
    ∀ (cases : List (Condition × Option (List Chunk))) (vs : ValueSet),
      writeCases place cases vs = (renderCases cases vs).map (·.into place)
  | [], _ => rfl
  | (condition, output) :: rest, vs => by
      rw [writeCases, renderCases, writeOutput_eq_into place output vs,
        writeCases_eq_into place rest vs]
      cases condition vs <;> rfl

/-- Writing an alternative is delivering what is listed for it. -/
theorem writeOutput_eq_into (place : List Step) :
    ∀ (output : Option (List Chunk)) (vs : ValueSet),
      writeOutput place output vs = (renderOutput output vs).into place
  | none, _ => rfl
  | some program, vs => writeFrom_eq_into place 1 program.length program vs

end

/-- **Writing is delivering what is listed**, for every sink. -/
theorem write_eq_into (program : Program) (vs : ValueSet) :
    program.write vs = (program.render vs).into [] :=
  writeFrom_eq_into [] 1 program.length program vs

end Program

/-! ### Where writes come from -/

/-- The program that a switch carries out. -/
def Chunk.chosen? (default : Option Program) (vs : ValueSet) :
    List (Condition × Option Program) → Option Program
  | [] => default
  | (condition, output) :: rest => if condition vs then output else chosen? default vs rest

/-- **Steps lead to a chunk that writes**, and to the values it is carried out with: from a chunk
and values, through rows and through the alternatives that the values choose. -/
inductive Chunk.Leads : Chunk → ValueSet → List Step → Chunk → ValueSet → Prop
  | static {text : String} {vs : ValueSet} : Leads (.static text) vs [] (.static text) vs
  | scalar {v : Var} {reflow : Option Reflow} {vs : ValueSet} :
      Leads (.scalar v reflow) vs [] (.scalar v reflow) vs
  | row {t : Tag} {program : Program} {vs row ws : ValueSet} {stream : RowStream ValueSet}
      {i : ℕ} {chunk leaf : Chunk} {steps : List Step} (hstream : vs.getStream t = .ok stream)
      (hrow : row ∈ stream.rows) (hchunk : program[i]? = some chunk)
      (h : Leads chunk row steps leaf ws) :
      Leads (.subsection t program) vs (.chunk (i + 1) program.length :: steps) leaf ws
  | alternative {cases : List (Condition × Option Program)} {default : Option Program}
      {program : Program} {vs ws : ValueSet} {i : ℕ} {chunk leaf : Chunk} {steps : List Step}
      (hchosen : chosen? default vs cases = some program) (hchunk : program[i]? = some chunk)
      (h : Leads chunk vs steps leaf ws) :
      Leads (.switch cases default) vs (.chunk (i + 1) program.length :: steps) leaf ws

/-- **Steps lead from a program to a chunk that writes**: the first one is the place of a chunk
among those of the program. -/
inductive Program.Leads (program : Program) (vs : ValueSet) : List Step → Chunk → ValueSet → Prop
  | intro {ws : ValueSet} {i : ℕ} {chunk leaf : Chunk} {steps : List Step}
      (hchunk : program[i]? = some chunk) (h : chunk.Leads vs steps leaf ws) :
      Leads program vs (.chunk (i + 1) program.length :: steps) leaf ws

namespace Program.Leads

variable {program : Program} {vs ws : ValueSet} {steps : List Step} {leaf : Chunk}

/-- From the program of a row to the chunk that has the rows. -/
theorem row {t : Tag} {stream : RowStream ValueSet} {values : ValueSet}
    (h : program.Leads values steps leaf ws) (hstream : vs.getStream t = .ok stream)
    (hrow : values ∈ stream.rows) :
    (Chunk.subsection t program).Leads vs steps leaf ws := by
  obtain ⟨hchunk, h⟩ := h
  exact .row hstream hrow hchunk h

/-- From the program of an alternative to the switch. -/
theorem alternative {cases : List (Condition × Option Program)} {default : Option Program}
    (h : program.Leads vs steps leaf ws)
    (hchosen : Chunk.chosen? default vs cases = some program) :
    (Chunk.switch cases default).Leads vs steps leaf ws := by
  obtain ⟨hchunk, h⟩ := h
  exact .alternative hchosen hchunk h

end Program.Leads

/-- A write comes from a program with values if its steps lead to a chunk that writes its text. -/
def Write.ComesFrom (w : Write) (program : Program) (vs : ValueSet) : Prop :=
  ∃ leaf ws, program.Leads vs w.steps leaf ws ∧ Program.renderChunk leaf ws = .write w.text

namespace Rendering

/-- A write of one rendering after the other. -/
theorem mem_writes_append {a b : Rendering} {w : Write} (h : w ∈ (a.append b).writes) :
    w ∈ a.writes ∨ w ∈ b.writes := by
  obtain ⟨writes, _ | e⟩ := a
  · exact List.mem_append.mp h
  · exact .inl h

/-- A write of rows one after the other. -/
theorem mem_writes_rows {rows : List ValueSet} {render : ValueSet → Rendering}
    {ending : Rendering} {w : Write}
    (h : w ∈ (rows.foldr (fun row later => (render row).append later) ending).writes) :
    (∃ row ∈ rows, w ∈ (render row).writes) ∨ w ∈ ending.writes := by
  induction rows with
  | nil => exact .inr h
  | cons row rest ih =>
      rcases mem_writes_append h with h | h
      · exact .inl ⟨row, List.mem_cons_self, h⟩
      · refine (ih h).imp_left ?_
        rintro ⟨row, hrow, h⟩
        exact ⟨row, List.mem_cons_of_mem _ hrow, h⟩

end Rendering

namespace Program

/-- A place for text is written at once or not at all. -/
theorem renderChunk_scalar_cases (v : Var) (reflow : Option Reflow) (vs : ValueSet) :
    (∃ text, renderChunk (.scalar v reflow) vs = .write text) ∨
      ∃ e, renderChunk (.scalar v reflow) vs = .stop e := by
  rw [renderChunk]
  cases vs.getScalar v with
  | error m => exact .inr ⟨_, rfl⟩
  | ok text =>
      cases reflow with
      | none => exact .inl ⟨_, rfl⟩
      | some r =>
          dsimp only
          cases r.apply text with
          | error o => exact .inr ⟨_, rfl⟩
          | ok filled => exact .inl ⟨_, rfl⟩

/-- If no case holds, a switch carries out its default. -/
theorem chosen?_of_renderCases_eq_none {cases : List (Condition × Option Program)}
    {vs : ValueSet} (h : renderCases cases vs = none) (default : Option Program) :
    Chunk.chosen? default vs cases = default := by
  induction cases with
  | nil => rfl
  | cons first rest ih =>
      obtain ⟨condition, output⟩ := first
      rw [renderCases] at h
      rw [Chunk.chosen?]
      split at h
      · cases h
      · rename_i hfails
        rw [if_neg hfails]
        exact ih h

mutual

/-- The writes that are listed for a chunk come from where their steps lead. -/
theorem leads_of_mem_renderChunk : ∀ (chunk : Chunk) (vs : ValueSet) (w : Write),
    w ∈ (renderChunk chunk vs).writes →
      ∃ leaf ws, chunk.Leads vs w.steps leaf ws ∧ renderChunk leaf ws = .write w.text
  | .static text, vs, w, h => by
      rw [renderChunk] at h
      obtain rfl := List.mem_singleton.mp h
      exact ⟨_, vs, .static, by rw [renderChunk]⟩
  | .scalar v reflow, vs, w, h => by
      rcases renderChunk_scalar_cases v reflow vs with ⟨text, htext⟩ | ⟨e, hstop⟩
      · rw [htext] at h
        obtain rfl := List.mem_singleton.mp h
        exact ⟨_, vs, .scalar, htext⟩
      · rw [hstop] at h
        cases h
  | .subsection t program, vs, w, h => by
      rw [renderChunk] at h
      cases hstream : vs.getStream t with
      | error m =>
          rw [hstream] at h
          cases h
      | ok stream =>
          simp only [hstream] at h
          rcases Rendering.mem_writes_rows h with ⟨row, hrow, h⟩ | h
          · obtain ⟨i, chunk, steps, leaf, ws, hchunk, hsteps, hleads, hwrite⟩ :=
              leads_of_mem_renderFrom 1 program.length program row w h
            exact ⟨leaf, ws, hsteps ▸ .row hstream hrow hchunk hleads, hwrite⟩
          · cases hfailure : stream.failure <;> (rw [hfailure] at h; cases h)
  | .switch cases default, vs, w, h => by
      rw [renderChunk] at h
      cases hcases : renderCases cases vs with
      | none =>
          rw [hcases] at h
          obtain ⟨program, rfl, leaf, ws, hleads, hwrite⟩ :=
            comesFrom_of_mem_renderOutput default vs w h
          exact ⟨leaf, ws, hleads.alternative (chosen?_of_renderCases_eq_none hcases _), hwrite⟩
      | some chosen =>
          rw [hcases] at h
          obtain ⟨program, hchosen, leaf, ws, hleads, hwrite⟩ :=
            comesFrom_of_mem_renderCases default cases vs chosen hcases w h
          exact ⟨leaf, ws, hleads.alternative hchosen, hwrite⟩

/-- The writes that are listed for chunks come from where their steps lead. -/
theorem leads_of_mem_renderFrom (number count : ℕ) : ∀ (program : List Chunk) (vs : ValueSet)
    (w : Write), w ∈ (renderFrom number count program vs).writes →
      ∃ i chunk steps leaf ws, program[i]? = some chunk ∧
        w.steps = .chunk (i + number) count :: steps ∧ chunk.Leads vs steps leaf ws ∧
          renderChunk leaf ws = .write w.text
  | [], _, w, h => by cases h
  | chunk :: rest, vs, w, h => by
      rw [renderFrom] at h
      rcases Rendering.mem_writes_append h with h | h
      · obtain ⟨inner, hinner, rfl⟩ := List.mem_map.mp h
        obtain ⟨leaf, ws, hleads, hwrite⟩ := leads_of_mem_renderChunk chunk vs inner hinner
        exact ⟨0, chunk, inner.steps, leaf, ws, rfl, by rw [Nat.zero_add], hleads, hwrite⟩
      · obtain ⟨i, later, steps, leaf, ws, hlater, hsteps, hleads, hwrite⟩ :=
          leads_of_mem_renderFrom (number + 1) count rest vs w h
        refine ⟨i + 1, later, steps, leaf, ws, hlater, ?_, hleads, hwrite⟩
        rw [hsteps, Nat.add_right_comm, Nat.add_assoc]

/-- The writes that are listed for the case that is chosen come from where their steps lead. -/
theorem comesFrom_of_mem_renderCases (default : Option (List Chunk)) :
    ∀ (cases : List (Condition × Option (List Chunk))) (vs : ValueSet) (chosen : Rendering),
      renderCases cases vs = some chosen → ∀ w ∈ chosen.writes,
        ∃ program, Chunk.chosen? default vs cases = some program ∧ w.ComesFrom program vs
  | [], _, _, h, _, _ => by cases h
  | (condition, output) :: rest, vs, chosen, h, w, hw => by
      rw [renderCases] at h
      rw [Chunk.chosen?]
      split at h
      · rename_i hholds
        obtain rfl := Option.some.inj h
        rw [if_pos hholds]
        exact comesFrom_of_mem_renderOutput output vs w hw
      · rename_i hfails
        rw [if_neg hfails]
        exact comesFrom_of_mem_renderCases default rest vs chosen h w hw

/-- The writes that are listed for an alternative come from where their steps lead. -/
theorem comesFrom_of_mem_renderOutput : ∀ (output : Option (List Chunk)) (vs : ValueSet)
    (w : Write), w ∈ (renderOutput output vs).writes →
      ∃ program, output = some program ∧ w.ComesFrom program vs
  | none, _, w, h => by cases h
  | some program, vs, w, h => by
      obtain ⟨i, chunk, steps, leaf, ws, hchunk, hsteps, hleads, hwrite⟩ :=
        leads_of_mem_renderFrom 1 program.length program vs w h
      exact ⟨program, rfl, leaf, ws, hsteps ▸ .intro hchunk hleads, hwrite⟩

end

/-- **The writes of a program come from where their steps lead.** -/
theorem comesFrom_of_mem_render {program : Program} {vs : ValueSet} {w : Write}
    (h : w ∈ (program.render vs).writes) : w.ComesFrom program vs := by
  obtain ⟨i, chunk, steps, leaf, ws, hchunk, hsteps, hleads, hwrite⟩ :=
    leads_of_mem_renderFrom 1 program.length program vs w h
  exact ⟨leaf, ws, hsteps ▸ .intro hchunk hleads, hwrite⟩

end Program

/-! ### Where a sink cuts -/

/-- The texts of writes, one after the other. -/
def Write.join (writes : List Write) : String :=
  String.join (writes.map (·.text))

namespace Write

variable {limit : ℕ}

/-- Nothing is written by no writes. -/
@[simp] theorem join_nil : join [] = "" := rfl

/-- The first write stands in front. -/
theorem join_cons (w : Write) (rest : List Write) : join (w :: rest) = w.text ++ join rest := by
  rw [join, List.map_cons, String.join_cons]
  rfl

/-- **Writes that do not fit together have a first one that does not fit.** -/
theorem exists_cut : ∀ (writes : List Write) (size : ℕ), size ≤ limit →
    limit < size + (join writes).utf8ByteSize →
      ∃ before w after, writes = before ++ w :: after ∧
        size + (join before).utf8ByteSize ≤ limit ∧
          limit < size + (join before).utf8ByteSize + w.text.utf8ByteSize
  | [], size, hsize, hover => absurd hover (Nat.not_lt.mpr hsize)
  | w :: rest, size, hsize, hover => by
      rw [join_cons, String.utf8ByteSize_append, ← Nat.add_assoc] at hover
      by_cases hfits : size + w.text.utf8ByteSize ≤ limit
      · obtain ⟨before, later, after, rfl, hbefore, hlater⟩ := exists_cut rest _ hfits hover
        refine ⟨w :: before, later, after, rfl, ?_, ?_⟩ <;>
          rw [join_cons, String.utf8ByteSize_append, ← Nat.add_assoc]
        · exact hbefore
        · exact hlater
      · exact ⟨[], w, rest, rfl, hsize, Nat.not_le.mp hfits⟩

end Write

namespace Writing

variable {limit : Option ℕ} {accepted : String} {offered : List Write} {w : Write}

/-- A write that fits is accepted. -/
theorem offer_of_fits (h : w.fits limit accepted.utf8ByteSize = true) :
    offer 0 w ⟨limit, accepted, offered⟩ =
      .ok () ⟨limit, accepted ++ w.text, offered ++ [w]⟩ := by
  rw [offer, if_pos h]

/-- A write that does not fit is refused. -/
theorem offer_of_misfit (h : w.fits limit accepted.utf8ByteSize = false) :
    offer 0 w ⟨limit, accepted, offered⟩ =
      .error (.failure ⟨.sinkClosed, w.steps⟩) ⟨limit, accepted, offered ++ [w]⟩ := by
  rw [offer, h]
  rfl

/-- Writes that fit together are all accepted. -/
theorem forM_offer_of_fits (writes : List Write) :
    ∀ (accepted : String) (offered : List Write),
      (limit.all fun n => accepted.utf8ByteSize + (Write.join writes).utf8ByteSize ≤ n) = true →
        forM writes (offer 0) ⟨limit, accepted, offered⟩ =
          .ok () ⟨limit, accepted ++ Write.join writes, offered ++ writes⟩ := by
  induction writes with
  | nil =>
      intro accepted offered _
      rw [Write.join_nil, String.append_empty, List.append_nil]
      rfl
  | cons w rest ih =>
      intro accepted offered h
      rw [Write.join_cons, String.utf8ByteSize_append] at h
      have hfits : w.fits limit accepted.utf8ByteSize = true := by
        cases limit with
        | none => rfl
        | some n => simp [Write.fits] at h ⊢; omega
      have hrest := ih (accepted ++ w.text) (offered ++ [w])
        (by rw [String.utf8ByteSize_append, Nat.add_assoc]; exact h)
      rw [List.append_assoc, String.append_assoc] at hrest
      rw [List.forM_cons, Write.join_cons]
      change EStateM.bind _ _ _ = _
      rw [EStateM.bind, offer_of_fits hfits]
      exact hrest

/-- The first write that does not fit is the last one that the sink is offered. -/
theorem forM_offer_of_misfit {before after : List Write} {n : ℕ}
    (hbefore : (Write.join before).utf8ByteSize ≤ n)
    (hover : n < (Write.join before).utf8ByteSize + w.text.utf8ByteSize) :
    forM (before ++ w :: after) (offer 0) (Sink.new (some n)) =
      .error (.failure ⟨.sinkClosed, w.steps⟩)
        ⟨some n, Write.join before, before ++ [w]⟩ := by
  have hfits := @forM_offer_of_fits (some n) before "" [] (by simpa using hbefore)
  rw [String.empty_append, List.nil_append] at hfits
  have hmisfit : w.fits (some n) (Write.join before).utf8ByteSize = false := by
    simpa [Write.fits] using hover
  rw [List.forM_append, List.forM_cons]
  change EStateM.bind _ _ _ = _
  rw [EStateM.bind, Sink.new, hfits]
  change EStateM.bind _ _ _ = _
  rw [EStateM.bind, offer_of_misfit hmisfit]

end Writing

/-- What has become of a sink, without the ledger. -/
def Sink.delivery : EStateM.Result Abort Sink Unit → Delivery
  | .ok _ k => ⟨k.accepted, none⟩
  | .error e k => ⟨k.accepted, some e⟩

namespace Rendering

/-- At the outermost place, writes are offered as they are listed. -/
theorem into_nil (r : Rendering) : r.into [] = (do
    forM r.writes (Writing.offer 0)
    match r.stopped with
    | some e => throw e
    | none => pure ()) := rfl

/-- Delivering writes is offering them in order. -/
theorem run_eq_delivery (limit : Option ℕ) (stopped : Option Abort) (writes : List Write) :
    ∀ (accepted : String) (offered : List Write),
      Delivery.run limit stopped accepted writes =
        Sink.delivery ((⟨writes, stopped⟩ : Rendering).into [] ⟨limit, accepted, offered⟩) := by
  induction writes with
  | nil =>
      intro accepted offered
      cases stopped <;> rfl
  | cons w rest ih =>
      intro accepted offered
      rw [Delivery.run, into_nil]
      dsimp only
      rw [List.forM_cons, bind_assoc]
      change _ = Sink.delivery (EStateM.bind _ _ _)
      rw [EStateM.bind]
      split
      · rename_i hfits
        rw [Writing.offer_of_fits hfits]
        exact ih _ _
      · rename_i hmisfit
        rw [Writing.offer_of_misfit (Bool.eq_false_iff.mpr hmisfit)]
        rfl

end Rendering

namespace Template

variable {t : Template} {vs : ValueSet}

/-- **Rendering is writing**, without the ledger. -/
theorem render_eq_write (t : Template) (vs : ValueSet) (limit : Option ℕ) :
    t.render vs limit = Sink.delivery (t.write vs (Sink.new limit)) := by
  rw [render, write]
  split
  · rw [Program.write_eq_into, Rendering.deliver]
    exact Rendering.run_eq_delivery limit _ _ "" []
  · rfl

/-- Where rendering is not ended by anything but a sink, every sink is offered what is listed. -/
theorem write_eq_forM (h : (t.render vs none).stopped = none) :
    t.write vs = forM (t.program.render vs).writes (Writing.offer 0) := by
  rw [render] at h
  split at h
  · rename_i hid
    rw [Rendering.deliver, Delivery.run_none] at h
    rw [write, if_pos hid, Program.write_eq_into, Rendering.into_nil]
    dsimp only at h
    rw [h]
    exact bind_pure _
  · cases h

/-- Where rendering is not ended by anything but a sink, a sink without a limit is given all
that is listed. -/
theorem write_unlimited (h : (t.render vs none).stopped = none) :
    t.write vs (Sink.new none) = .ok ()
      ⟨none, Write.join (t.program.render vs).writes, (t.program.render vs).writes⟩ := by
  rw [write_eq_forM h, Sink.new, Writing.forM_offer_of_fits _ "" [] rfl, String.empty_append,
    List.nil_append]

/-- **How a sink with a limit ends an output**: `w` is the first of the writes that takes it over
the limit. Those before it are accepted, and none after it is attempted. The failure tells the
way to the chunk that `w` comes from. -/
structure Cut (t : Template) (vs : ValueSet) (limit : ℕ) (writes before : List Write)
    (w : Write) : Prop where
  listed : ∃ after, writes = before ++ w :: after
  fits : (Write.join before).utf8ByteSize ≤ limit
  misfits : limit < (Write.join before).utf8ByteSize + w.text.utf8ByteSize
  render_eq : t.render vs (some limit) =
    ⟨Write.join before, some (.failure ⟨.sinkClosed, w.steps⟩)⟩
  write_eq : t.write vs (Sink.new (some limit)) =
    .error (.failure ⟨.sinkClosed, w.steps⟩) ⟨some limit, Write.join before, before ++ [w]⟩
  comesFrom : w.ComesFrom t.program vs

/-- An output that is over the limit is cut. -/
theorem exists_cut (h : (t.render vs none).stopped = none) {limit : ℕ}
    (hover : limit < (Write.join (t.program.render vs).writes).utf8ByteSize) :
    ∃ before w, t.Cut vs limit (t.program.render vs).writes before w := by
  obtain ⟨before, w, after, hlisted, hfits, hw⟩ :=
    Write.exists_cut (t.program.render vs).writes 0 (Nat.zero_le limit) (by simpa using hover)
  rw [Nat.zero_add] at hfits hw
  have hwrite : t.write vs (Sink.new (some limit)) =
      .error (.failure ⟨.sinkClosed, w.steps⟩) ⟨some limit, Write.join before, before ++ [w]⟩ := by
    rw [write_eq_forM h, hlisted, Writing.forM_offer_of_misfit hfits hw]
  have hmem : w ∈ (t.program.render vs).writes := by simp [hlisted]
  refine ⟨before, w, ⟨after, hlisted⟩, hfits, hw, ?_, hwrite,
    Program.comesFrom_of_mem_render hmem⟩
  rw [render_eq_write, hwrite]
  rfl

/-- **A sink that refuses a write cuts the output there.** Let a template be rendered to its end
into a sink without a limit, which is offered `writes`. A sink with a limit makes the rendering
fail exactly if the output does not fit, and is given the same if it does. -/
theorem render_limited (h : (t.render vs none).stopped = none) (limit : ℕ) :
    ∃ writes, t.write vs (Sink.new none) = .ok () ⟨none, Write.join writes, writes⟩ ∧
      t.render vs none = ⟨Write.join writes, none⟩ ∧
      ((t.render vs (some limit)).stopped = none ↔ (Write.join writes).utf8ByteSize ≤ limit) ∧
      ((Write.join writes).utf8ByteSize ≤ limit →
        t.render vs (some limit) = ⟨Write.join writes, none⟩ ∧
          t.write vs (Sink.new (some limit)) =
            .ok () ⟨some limit, Write.join writes, writes⟩) ∧
      (limit < (Write.join writes).utf8ByteSize →
        ∃ before w, t.Cut vs limit writes before w) := by
  have hfits : (Write.join (t.program.render vs).writes).utf8ByteSize ≤ limit →
      t.write vs (Sink.new (some limit)) = .ok ()
        ⟨some limit, Write.join (t.program.render vs).writes, (t.program.render vs).writes⟩ := by
    intro hle
    rw [write_eq_forM h, Sink.new, Writing.forM_offer_of_fits _ "" [] (by simpa using hle),
      String.empty_append, List.nil_append]
  have hrender : (Write.join (t.program.render vs).writes).utf8ByteSize ≤ limit →
      t.render vs (some limit) = ⟨Write.join (t.program.render vs).writes, none⟩ := by
    intro hle
    rw [render_eq_write, hfits hle]
    rfl
  refine ⟨_, write_unlimited h, ?_, ⟨fun hstopped => ?_, fun hle => ?_⟩,
    fun hle => ⟨hrender hle, hfits hle⟩, exists_cut h⟩
  · rw [render_eq_write, write_unlimited h]
    rfl
  · by_contra hover
    obtain ⟨before, w, hcut⟩ := exists_cut h (Nat.not_le.mp hover)
    rw [hcut.render_eq] at hstopped
    cases hstopped
  · rw [hrender hle]

end Template

/-- A sink for 27 bytes cuts the first row out of the page of `Node.profile`. -/
theorem Template.render_limited_profile : ∃ t next vs writes before w,
    Node.profile.compile .tidy (.newRoot 1) = (.ok t, next) ∧
      t.bind (Node.profileArgs "ann" "lean") = .ok vs ∧
      t.write vs (Sink.new none) = .ok () ⟨none, Write.join writes, writes⟩ ∧
      t.Cut vs 27 writes before w ∧
      t.render vs (some 27) = ⟨"<p data-user=\"ann\">\n  ann",
        some (.failure ⟨.sinkClosed, [.chunk 5 6, .chunk 1 1]⟩)⟩ := by
  have hruns : Node.profile.runs .tidy (Node.profileArgs "ann" "lean") (fun t vs =>
      decide ((t.render vs none).stopped = none ∧
        27 < (t.render vs none).accepted.utf8ByteSize ∧
        (t.render vs (some 27)).accepted = "<p data-user=\"ann\">\n  ann" ∧
        (t.render vs (some 27)).stopped =
          some (.failure ⟨.sinkClosed, [.chunk 5 6, .chunk 1 1]⟩))) = true := by
    decide +kernel
  obtain ⟨t, next, vs, hcompile, hbind, hchecked⟩ := Node.exists_of_runs hruns
  obtain ⟨hstopped, hover, haccepted, hfailure⟩ := of_decide_eq_true hchecked
  obtain ⟨writes, hwrite, hrender, -, -, hcut⟩ := render_limited hstopped 27
  rw [hrender] at hover
  obtain ⟨before, w, hcut⟩ := hcut hover
  exact ⟨t, next, vs, writes, before, w, hcompile, hbind, hwrite, hcut,
    by rw [← haccepted, ← hfailure]⟩

end TrustedHtml
