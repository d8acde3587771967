import Octoglyph.Proofs.Capacity
import Octoglyph.Proofs.Meaning

/-! # Encodings run their programs

An encoding depends on the program and the strategy alone. It is spelled with the symbols and runs
the program, so the checks at the end of encoding always pass. What can still fail are the limits:
a character is refused, else a template is refused, else a statement is too long for a string, else
the program is encoded.
-/

namespace Octoglyph

/-- Two steps succeed together if the second does on what the first gives. -/
theorem bind_eq_ok_iff {ε α β : Type} {x : Except ε α} {f : α → Except ε β} {b : β} :
    (x >>= f) = .ok b ↔ ∃ a, x = .ok a ∧ f a = .ok b := by
  cases x with
  | error e => exact ⟨nofun, nofun⟩
  | ok a => exact ⟨fun h => ⟨a, rfl, h⟩, fun ⟨_, ha, h⟩ => Except.ok.inj ha ▸ h⟩

namespace Encoder

/-- The encoding of a program, whatever the limits. -/
def encoding (strategy : Strategy) (program : Text) : Encoded where
  chain := assemble (codes program (strategy.payload program)) (strategy.payload program)
  text := (assemble (codes program (strategy.payload program)) (strategy.payload program)).text
  text_eq := rfl

/-- The texts that the encoding of a program executes when it needs the given codes. -/
def trace (strategy : Strategy) (program : Text) (codes : List UInt32) : List Text :=
  preparation codes ++ strategy.trace program

variable (strategy : Strategy) (program : Text)

theorem evaluate_assemble {codes : List UInt32}
    (h : ∀ step ∈ strategy.payload program, (prepared codes).Spells step.spelled) :
    evaluate (assemble codes (strategy.payload program)).text =
      .ok ⟨trace strategy program codes, strategy.bindings (prepared codes) program⟩ := by
  rw [evaluate_text, eval_assemble_payload h]
  rfl

theorem evaluate_encoding :
    ∃ b, evaluate (encoding strategy program).text =
      .ok ⟨trace strategy program (codes program (strategy.payload program)), b⟩ := by
  have hcodes := isCodeSet_codes program (strategy.payload program)
  refine ⟨_, evaluate_assemble strategy program fun step hstep => spells_prepared fun c hc => ?_⟩
  exact (hcodes.mem_iff c.val).2
    ⟨c, List.mem_append_right _ (List.mem_flatMap.2 ⟨step, hstep, hc⟩), rfl⟩

theorem payload?_trace (codes : List UInt32) (b : Bindings) :
    (⟨trace strategy program codes, b⟩ : Outcome).payload? = some program := by
  rw [Outcome.payload?, trace, List.getLast?_append, strategy.getLast?_trace]
  rfl

/-- Evaluating an encoding gives the program back. -/
theorem decode_encoding : decode (encoding strategy program).text = .ok program := by
  obtain ⟨b, hb⟩ := evaluate_encoding strategy program
  rw [decode, hb, Except.map, payload?_trace]
  rfl

theorem checkSpelling_encoding : checkSpelling (encoding strategy program).text = .ok () := by
  have hnone := Alphabet.firstForeign?_eq_none_iff.2
    (spelled_assemble (codes program (strategy.payload program)) strategy program)
  rw [checkSpelling, (encoding strategy program).text_eq]
  simp [encoding, hnone]

theorem checkPayload_encoding :
    checkPayload program (encoding strategy program).text = .ok () := by
  obtain ⟨b, hb⟩ := evaluate_encoding strategy program
  simp [checkPayload, hb, payload?_trace]

end Encoder

open Encoder

/-! ## What is refused -/

/-- The characters of the program that are refused. -/
def Config.unsupported (config : Config) (c : Char) : Bool := config.maxCodePoint < c.toNat

/-- The templates that are refused. -/
def Config.oversized (config : Config) (slots : Nat) : Bool := config.maxTemplateSlots < slots

/-- The arguments of all templates in the encoding of a program: those of the assignments, and then
those of the steps. -/
def Strategy.demands (strategy : Strategy) (program : Text) : List Nat :=
  (codes program (strategy.payload program)).map Statement.assignmentSlots ++
    (strategy.payload program).filterMap Step.slots?

/-- The result of all checks together, from the first template that is refused and from whether
strings can hold the statements. -/
def Config.verdict (config : Config) : Option Nat → Bool → Except EncodeFailure Unit
  | some slots, _ => .error (.refused (.templateTooLarge slots config.maxTemplateSlots))
  | none, false => .error .overflow
  | none, true => .ok ()

variable {config : Config} {program : Text}

namespace Encoder

/-- The checks of two parts are those of the whole, as long as the first part fits. -/
theorem verdict_bind (config : Config) (first second : Option Nat) (fits : Bool) :
    (config.verdict first true >>= fun _ => config.verdict second fits) =
      config.verdict (first.or second) fits := by
  cases first with
  | none => rfl
  | some slots => rfl

theorem checkSlots_eq_verdict (config : Config) (slots : Nat) :
    (liftM (checkSlots config slots) : Except EncodeFailure Unit) =
      config.verdict ([slots].find? config.oversized) true := by
  by_cases h : config.maxTemplateSlots < slots
  · have hover : config.oversized slots = true := decide_eq_true h
    simp only [checkSlots, if_pos h, List.find?_cons_of_pos hover]
    rfl
  · have hover : config.oversized slots = false := decide_eq_false h
    simp only [checkSlots, if_neg h, List.find?_cons, hover]
    rfl

theorem forM_checkSlots (config : Config) (codes : List UInt32) :
    (codes.forM fun n => (liftM (checkSlots config (Statement.assignmentSlots n)) :
        Except EncodeFailure Unit)) =
      config.verdict ((codes.map Statement.assignmentSlots).find? config.oversized) true := by
  induction codes with
  | nil => rfl
  | cons n codes ih =>
    rw [List.forM, ih, checkSlots_eq_verdict, verdict_bind, ← List.find?_append]
    rfl

theorem checkStep_eq_verdict (config : Config) (step : Step) :
    checkStep config step =
      config.verdict (step.slots?.toList.find? config.oversized) step.fits := by
  cases step with
  | verbatim name => rfl
  | encoded text =>
    have hstep : checkStep config (.encoded text) =
        ((liftM (checkSlots config (Statement.spellingSlots text)) : Except EncodeFailure Unit) >>=
          fun _ => config.verdict none (Statement.spellingFits text)) := by
      unfold checkStep
      cases hfits : Statement.spellingFits text with
      | false =>
        simp only [Step.slots?, Step.fits, hfits]
        rfl
      | true =>
        simp only [Step.slots?, Step.fits, hfits]
        rfl
    rw [hstep, checkSlots_eq_verdict, verdict_bind, Option.or_none]
    rfl

theorem forM_checkStep_of_fits {steps : List Step} (h : ∀ step ∈ steps, step.fits = true) :
    steps.forM (checkStep config) =
      config.verdict ((steps.filterMap Step.slots?).find? config.oversized) true := by
  induction steps with
  | nil => rfl
  | cons step steps ih =>
    obtain ⟨hstep, hsteps⟩ := List.forall_mem_cons.1 h
    rw [List.forM, ih hsteps, checkStep_eq_verdict, hstep, verdict_bind, ← List.find?_append]
    cases step <;> rfl

end Encoder

/-- Only a program that is spelled at once can be too long, and then there is no other step. -/
theorem Strategy.forM_checkStep (strategy : Strategy) :
    (strategy.payload program).forM (checkStep config) =
      config.verdict (((strategy.payload program).filterMap Step.slots?).find? config.oversized)
        ((strategy.payload program).all Step.fits) := by
  cases strategy with
  | direct =>
    have hall : (direct.payload program).all Step.fits = Statement.spellingFits program :=
      Bool.and_true _
    rw [hall, payload, List.forM, checkStep_eq_verdict]
    exact bind_pure_unit
  | accumulator =>
    rw [forM_checkStep_of_fits fits_of_mem_accumulator, List.all_eq_true.2 fits_of_mem_accumulator]

theorem encode_of_unsupported {found : Located}
    (h : program.locate? config.unsupported = some found) :
    encode config program = .error (.refused (.unsupportedCharacter found)) := by
  unfold Config.unsupported at h
  rw [encode, h]

/-- The two checks of the result never fail, so they cannot be seen from outside. -/
theorem encode_eq_verdict (h : program.locate? config.unsupported = none) :
    encode config program =
      (config.verdict ((config.strategy.demands program).find? config.oversized)
        ((config.strategy.payload program).all Step.fits) >>=
          fun _ => .ok (encoding config.strategy program)) := by
  have hspelling := checkSpelling_encoding config.strategy program
  have hpayload := checkPayload_encoding config.strategy program
  unfold Config.unsupported at h
  simp only [encoding] at hspelling hpayload
  rw [encode, h, Strategy.demands, List.find?_append, ← verdict_bind, bind_assoc,
    ← forM_checkSlots, ← Strategy.forM_checkStep]
  simp only [hspelling, hpayload]
  cases config.verify <;> rfl

theorem encode_of_oversized {slots : Nat} (h : program.locate? config.unsupported = none)
    (hslots : (config.strategy.demands program).find? config.oversized = some slots) :
    encode config program =
      .error (.refused (.templateTooLarge slots config.maxTemplateSlots)) := by
  rw [encode_eq_verdict h, hslots]
  rfl

theorem encode_of_overflow (h : program.locate? config.unsupported = none)
    (hslots : (config.strategy.demands program).find? config.oversized = none)
    (hfits : (config.strategy.payload program).all Step.fits = false) :
    encode config program = .error .overflow := by
  rw [encode_eq_verdict h, hslots, hfits]
  rfl

theorem encode_of_fits (h : program.locate? config.unsupported = none)
    (hslots : (config.strategy.demands program).find? config.oversized = none)
    (hfits : (config.strategy.payload program).all Step.fits = true) :
    encode config program = .ok (encoding config.strategy program) := by
  rw [encode_eq_verdict h, hslots, hfits]
  rfl

/-! ## The four cases -/

/-- A string can hold the statement of every text that the steps spell. -/
def Strategy.Fits (strategy : Strategy) (program : Text) : Prop :=
  ∀ text, Step.encoded text ∈ strategy.payload program →
    (Statement.spelling text).text.length < 2 ^ 63

/-- The results that encoding a program can have. -/
inductive Encodes (config : Config) : Text → Except EncodeFailure Encoded → Prop where
  /-- The first character above the highest code is refused. -/
  | unsupported {front rest : Text} {c : Char} (hfront : ∀ d ∈ front, d.toNat ≤ config.maxCodePoint)
    (hc : config.maxCodePoint < c.toNat) :
    Encodes config (front ++ c :: rest)
      (.error (.refused (.unsupportedCharacter ⟨front.length, c⟩)))
  /-- If there is none, the first template above the limit is refused. -/
  | tooLarge {program : Text} {before after : List Nat} {slots : Nat}
    (hprogram : ∀ c ∈ program, c.toNat ≤ config.maxCodePoint)
    (hdemands : config.strategy.demands program = before ++ slots :: after)
    (hbefore : ∀ n ∈ before, n ≤ config.maxTemplateSlots)
    (hslots : config.maxTemplateSlots < slots) :
    Encodes config program (.error (.refused (.templateTooLarge slots config.maxTemplateSlots)))
  /-- If there is none either, but a statement that no string can hold, the program stops. -/
  | overflow {program : Text} (hprogram : ∀ c ∈ program, c.toNat ≤ config.maxCodePoint)
    (hdemands : ∀ n ∈ config.strategy.demands program, n ≤ config.maxTemplateSlots)
    (hlong : ¬ config.strategy.Fits program) :
    Encodes config program (.error .overflow)
  /-- If there is no such statement, the program is encoded. -/
  | fits {program : Text} (hprogram : ∀ c ∈ program, c.toNat ≤ config.maxCodePoint)
    (hdemands : ∀ n ∈ config.strategy.demands program, n ≤ config.maxTemplateSlots)
    (hfits : config.strategy.Fits program) :
    Encodes config program (.ok (encoding config.strategy program))

namespace Strategy

theorem all_fits_iff {strategy : Strategy} :
    (strategy.payload program).all Step.fits = true ↔ strategy.Fits program := by
  rw [List.all_eq_true]
  constructor
  · intro h text htext
    exact Statement.spellingFits_iff.1 (h _ htext)
  · intro h step hstep
    cases step with
    | encoded text => exact Statement.spellingFits_iff.2 (h text hstep)
    | verbatim name => rfl

theorem fits_accumulator (program : Text) : accumulator.Fits program :=
  all_fits_iff.1 (List.all_eq_true.2 fits_of_mem_accumulator)

end Strategy

namespace Config

theorem unsupported_eq_false {c : Char} :
    config.unsupported c = false ↔ c.toNat ≤ config.maxCodePoint := by
  simp [unsupported]

theorem oversized_eq_false {n : Nat} :
    config.oversized n = false ↔ n ≤ config.maxTemplateSlots := by
  simp [oversized]

theorem locate?_unsupported
    (h : ∀ c ∈ program, c.toNat ≤ config.maxCodePoint) :
    program.locate? config.unsupported = none :=
  Text.locate?_eq_none_iff.2 fun c hc => unsupported_eq_false.2 (h c hc)

theorem find?_oversized_eq_none_iff {demands : List Nat} :
    demands.find? config.oversized = none ↔ ∀ n ∈ demands, n ≤ config.maxTemplateSlots := by
  simp [oversized]

end Config

variable {result : Except EncodeFailure Encoded}

theorem encode_of_encodes (h : Encodes config program result) : encode config program = result := by
  cases h with
  | unsupported hfront hc =>
    exact encode_of_unsupported (Text.locate?_append
      (fun d hd => Config.unsupported_eq_false.2 (hfront d hd)) (decide_eq_true hc) _)
  | tooLarge hprogram hdemands hbefore hslots =>
    refine encode_of_oversized (Config.locate?_unsupported hprogram) ?_
    rw [hdemands, List.find?_eq_some_iff_append]
    refine ⟨decide_eq_true hslots, _, _, rfl, fun n hn => ?_⟩
    rw [Config.oversized_eq_false.2 (hbefore n hn)]
    rfl
  | overflow hprogram hdemands hlong =>
    refine encode_of_overflow (Config.locate?_unsupported hprogram)
      (Config.find?_oversized_eq_none_iff.2 hdemands) ?_
    rw [← Bool.not_eq_true, Strategy.all_fits_iff]
    exact hlong
  | fits hprogram hdemands hfits =>
    exact encode_of_fits (Config.locate?_unsupported hprogram)
      (Config.find?_oversized_eq_none_iff.2 hdemands) (Strategy.all_fits_iff.2 hfits)

theorem encodes_encode (config : Config) (program : Text) :
    Encodes config program (encode config program) := by
  cases hfound : program.locate? config.unsupported with
  | some found =>
    obtain ⟨front, rest, rfl, hposition, hc, hfront⟩ := Text.exists_split_of_locateFrom? hfound
    obtain ⟨position, c⟩ := found
    obtain rfl : position = front.length := by simpa using hposition
    rw [encode_of_unsupported hfound]
    exact .unsupported (fun d hd => Config.unsupported_eq_false.1 (hfront d hd))
      (of_decide_eq_true hc)
  | none =>
    have hprogram : ∀ c ∈ program, c.toNat ≤ config.maxCodePoint := fun c hc =>
      Config.unsupported_eq_false.1 (Text.locate?_eq_none_iff.1 hfound c hc)
    cases hslots : (config.strategy.demands program).find? config.oversized with
    | some slots =>
      obtain ⟨hover, before, after, hdemands, hbefore⟩ := List.find?_eq_some_iff_append.1 hslots
      rw [encode_of_oversized hfound hslots]
      exact .tooLarge hprogram hdemands
        (fun n hn => Config.oversized_eq_false.1 (by simpa using hbefore n hn))
        (of_decide_eq_true hover)
    | none =>
      have hdemands := Config.find?_oversized_eq_none_iff.1 hslots
      cases hfits : (config.strategy.payload program).all Step.fits with
      | false =>
        rw [encode_of_overflow hfound hslots hfits]
        refine .overflow hprogram hdemands fun h => ?_
        exact Bool.false_ne_true (hfits.symm.trans (Strategy.all_fits_iff.2 h))
      | true =>
        rw [encode_of_fits hfound hslots hfits]
        exact .fits hprogram hdemands (Strategy.all_fits_iff.1 hfits)

theorem encodes_iff : Encodes config program result ↔ encode config program = result :=
  ⟨encode_of_encodes, fun h => h ▸ encodes_encode config program⟩

/-- Whatever is encoded, the result is the encoding. -/
theorem eq_encoding_of_encode {encoded : Encoded} (h : encode config program = .ok encoded) :
    encoded = encoding config.strategy program := by
  cases encodes_iff.2 h with
  | fits _ _ _ => rfl

/-! ## The round trip -/

/-- What has been encoded is evaluated without a fault. It executes `x=11`, then the assignment of
each code in ascending order, then the trace of its strategy, and decoding gives the program. -/
theorem evaluate_of_encode {encoded : Encoded} (h : encode config program = .ok encoded) :
    ∃ codes outcome,
      IsCodeSet codes (program ++ (config.strategy.payload program).flatMap Step.spelled) ∧
        evaluate encoded.text = .ok outcome ∧
          outcome.executed = trace config.strategy program codes ∧
            decode encoded.text = .ok program := by
  obtain rfl := eq_encoding_of_encode h
  obtain ⟨b, hb⟩ := evaluate_encoding config.strategy program
  exact ⟨_, _, isCodeSet_codes program (config.strategy.payload program), hb, rfl,
    decode_encoding config.strategy program⟩

/-- A program of a percent, a quote, the null character and a line break, spelled at once. -/
theorem evaluate_of_encode_direct :
    ∃ encoded, encode { strategy := .direct } ['%', '\'', '\x00', '\n', '%'] = .ok encoded ∧
      ∃ codes outcome,
        IsCodeSet codes (['%', '\'', '\x00', '\n', '%'] ++ ['%', '\'', '\x00', '\n', '%']) ∧
          evaluate encoded.text = .ok outcome ∧
            outcome.executed = trace .direct ['%', '\'', '\x00', '\n', '%'] codes ∧
              decode encoded.text = .ok ['%', '\'', '\x00', '\n', '%'] := by
  have h : encode { strategy := .direct } ['%', '\'', '\x00', '\n', '%'] =
      .ok (encoding .direct ['%', '\'', '\x00', '\n', '%']) :=
    encode_of_fits (by decide) (by decide +kernel) (by decide +kernel)
  exact ⟨_, h, evaluate_of_encode h⟩

/-! ## The symbols -/

namespace Harness

theorem symbolsError?_of_encode {encoded : Encoded} (h : encode config program = .ok encoded) :
    symbolsError? encoded.text = none := by
  obtain rfl := eq_encoding_of_encode h
  exact symbolsError?_assemble _ config.strategy program

variable {m : Type → Type} [Monad m] (bench : Bench m) {c : Case} {strategy : Strategy}

theorem checkUntimed_of_overflow
    (h : encode { config with strategy } c.program = .error .overflow) :
    checkUntimed bench config c strategy = failure := by
  rw [checkUntimed, h]

theorem checkUntimed_of_refused {e : EncodeError}
    (h : encode { config with strategy } c.program = .error (.refused e)) :
    checkUntimed bench config c strategy = pure {
      name := c.name
      strategy
      inputLength := c.program.byteLength
      error := some ("Encoding failed: " ++ e.message) } := by
  rw [checkUntimed, h]

theorem checkUntimed_of_ok {encoded : Encoded}
    (h : encode { config with strategy } c.program = .ok encoded) :
    checkUntimed bench config c strategy = do
      return {
        name := c.name
        strategy
        inputLength := c.program.byteLength
        encodedLength := encoded.text.byteLength
        runs := ← OptionT.lift (runAll bench c encoded.text) } := by
  simp only [checkUntimed, h, symbolsError?_of_encode h]

end Harness

/-- Every statement is spelled with the eight symbols. So is every text that is assembled, whatever
the limits and before it is checked, and it uses all of them; so the harness never finds an encoding
that does not. -/
theorem encodings_use_exactly_symbols :
    Alphabet.Spelled Statement.bootstrap.text ∧
      (∀ n, Alphabet.Spelled (Statement.assignment n).text) ∧
      (∀ s, Alphabet.Spelled (Statement.spelling s).text) ∧
      (∀ (strategy : Strategy) (program : Text),
        let steps := strategy.payload program
        let text := (assemble (codes program steps) steps).text
        Alphabet.isSpelled text = true ∧ Alphabet.used text = Alphabet.symbols) ∧
      (∀ config program encoded, encode config program = .ok encoded →
        Harness.symbolsError? encoded.text = none) ∧
      ∀ (m : Type → Type) [Monad m] (bench : Bench m) (config : Config) (c : Case)
        (strategy : Strategy),
        Harness.checkUntimed bench config c strategy =
          match encode { config with strategy } c.program with
          | .error .overflow => failure
          | .error (.refused e) => pure {
              name := c.name
              strategy
              inputLength := c.program.byteLength
              error := some ("Encoding failed: " ++ e.message) }
          | .ok encoded => do
            return {
              name := c.name
              strategy
              inputLength := c.program.byteLength
              encodedLength := encoded.text.byteLength
              runs := ← OptionT.lift (Harness.runAll bench c encoded.text) } := by
  refine ⟨Statement.spelled_bootstrap, Statement.spelled_assignment, Statement.spelled_spelling,
    fun strategy program => ⟨Alphabet.isSpelled_iff.2 (spelled_assemble _ strategy program),
      Alphabet.used_eq_symbols fun c hc => mem_assemble_of_mem_symbols _ _ hc⟩,
    fun _ _ _ => Harness.symbolsError?_of_encode, ?_⟩
  intro m _ bench config c strategy
  cases h : encode { config with strategy } c.program with
  | ok encoded => exact Harness.checkUntimed_of_ok bench h
  | error failure =>
    cases failure with
    | overflow => exact Harness.checkUntimed_of_overflow bench h
    | refused e => exact Harness.checkUntimed_of_refused bench h

/-- Even the empty program, spelled at once, uses all symbols. -/
theorem empty_encoding_uses_exactly_symbols :
    ∃ encoded, encode { strategy := .direct } [] = .ok encoded ∧
      Harness.symbolsError? encoded.text = none := by
  have h : encode { strategy := .direct } [] = .ok (encoding .direct []) :=
    encode_of_fits (by decide) (by decide) (by decide)
  obtain ⟨-, -, -, -, hnone, -⟩ := encodings_use_exactly_symbols
  exact ⟨_, h, hnone _ _ _ h⟩

end Octoglyph
