import Octoglyph.Proofs.Encoding
import Octoglyph.Proofs.Utf8
import Octoglyph.Proofs.Workspace

/-! # What commands leave behind

A command reads, then computes, then writes at most one file, and only then does it print. So one
that fails has printed nothing and changed nothing. What the encoding command produces has no line
break at its end but the one that it prints, so the decoding command may drop all of them. None of
this depends on how arguments and settings are read.
-/

namespace Octoglyph

open Encoder Command

namespace Workspace

variable {readers : Readers} {w w' : Workspace}

/-! ## Reading -/

section Bind

variable {α β : Type} {x : ExceptT String (StateM Workspace) α}

theorem run_lift {a : α} {y : StateM Workspace α} (h : y.run w = (a, w')) :
    (liftM y : ExceptT String (StateM Workspace) α).run.run w = (.ok a, w') := by
  have hlift : (liftM y : ExceptT String (StateM Workspace) α).run.run w =
      (.ok (y.run w).1, (y.run w).2) := rfl
  rw [hlift, h]

theorem run_bind_of_ok {a : α} (h : x.run.run w = (.ok a, w'))
    (f : α → ExceptT String (StateM Workspace) β) : (x >>= f).run.run w = (f a).run.run w' := by
  rw [ExceptT.run_bind, StateT.run_bind, h]
  rfl

theorem run_bind_of_error {message : String} (h : x.run.run w = (.error message, w'))
    (f : α → ExceptT String (StateM Workspace) β) :
    (x >>= f).run.run w = (.error message, w') := by
  rw [ExceptT.run_bind, StateT.run_bind, h]
  rfl

end Bind

theorem textOf_eq_ok_iff {what : String} {read : Except HostFault Bytes} {text : Text} :
    textOf what read = .ok text ↔ read = .ok (Utf8.encode text) := by
  cases read with
  | error fault =>
    constructor <;> intro h <;> cases h
  | ok bytes =>
    rw [textOf, Except.ok.injEq, ← Utf8.decode?_eq_some_iff]
    cases Utf8.decode? bytes <;> simp

/-- The bytes that a command takes as its input. -/
def source (w : Workspace) (input : Option Path) : Except HostFault Bytes :=
  match input.filter fun path => !isDash path with
  | some path => w.read path
  | none => .ok w.stdin

theorem run_readSource (w : Workspace) (input : Option Path) :
    ∃ what, (readSource host input).run.run w = (textOf what (w.source input), w) := by
  unfold readSource source
  cases input.filter fun path => !isDash path with
  | none => exact ⟨"stdin", rfl⟩
  | some path => exact ⟨"" ++ String.ofList path, rfl⟩

/-- The settings that a command starts from: the defaults, or those of the file that it is given. -/
def Configured (readers : Readers) (w : Workspace) (path? : Option Path) (config : Config) : Prop :=
  match path? with
  | none => config = {}
  | some path => ∃ text, w.read path = .ok (Utf8.encode text) ∧ readers.config text = .ok config

theorem run_readConfig (readers : Readers) (w : Workspace) (path? : Option Path) :
    ∃ result, (readConfig readers host path?).run.run w = (result, w) ∧
      ∀ config, result = .ok config ↔ w.Configured readers path? config := by
  cases path? with
  | none =>
    refine ⟨.ok {}, rfl, fun config => ?_⟩
    rw [Except.ok.injEq]
    exact eq_comm
  | some path =>
    have hread : (readText host "config " path).run.run w =
        (textOf ("config " ++ String.ofList path) (w.read path), w) := rfl
    rw [readConfig]
    cases htext : textOf ("config " ++ String.ofList path) (w.read path) with
    | error message =>
      rw [htext] at hread
      refine ⟨_, run_bind_of_error hread _, fun config => ⟨nofun, ?_⟩⟩
      rintro ⟨text, hfile, -⟩
      cases htext.symm.trans (textOf_eq_ok_iff.2 hfile)
    | ok text =>
      rw [htext] at hread
      have hfile : w.read path = .ok (Utf8.encode text) := textOf_eq_ok_iff.1 htext
      rw [run_bind_of_ok hread]
      cases hconfig : readers.config text with
      | error problem =>
        refine ⟨_, rfl, fun config => ⟨nofun, ?_⟩⟩
        rintro ⟨other, hother, hok⟩
        obtain rfl := Utf8.encode_injective (Except.ok.inj (hother.symm.trans hfile))
        cases hconfig.symm.trans hok
      | ok config =>
        refine ⟨_, rfl, fun other => ⟨fun h => ⟨text, hfile, Except.ok.inj h ▸ hconfig⟩, ?_⟩⟩
        rintro ⟨other, hother, hok⟩
        obtain rfl := Utf8.encode_injective (Except.ok.inj (hother.symm.trans hfile))
        exact congrArg _ (Except.ok.inj (hconfig.symm.trans hok))

/-- A write that fails changes nothing. -/
theorem run_writeFile (w : Workspace) (path : Path) (bytes : Bytes) :
    (host.writeFile path bytes).run w =
      match w.write path bytes with
      | .ok w' => (.ok (), w')
      | .error fault => (.error fault, w) := by
  simp only [host, StateT.run_bind, StateT.run_get, pure_bind]
  cases w.write path bytes with
  | ok w' => rfl
  | error fault => rfl

/-! ## Ends of commands -/

/-- The program that the command takes as its input is encoded as it asks: with the strategy of the
command line, or else that of the settings, and with a check if either of them wants one. -/
structure EncodesSource (readers : Readers) (w : Workspace) (options : EncodeOptions)
    (program : Text) (encoded : Encoded) : Prop where
  source_eq : w.source options.input = .ok (Utf8.encode program)
  encode_eq : ∃ config, w.Configured readers options.config config ∧
    encode { config with
      strategy := options.strategy.getD config.strategy
      verify := options.verify || config.verify } program = .ok encoded

/-- How the encoding command can end. -/
inductive EncodeEnds (readers : Readers) (w : Workspace) (options : EncodeOptions) :
    Response × Workspace → Prop where
  | refused (message : String) : EncodeEnds readers w options (.complaint message, w)
  | stopped : EncodeEnds readers w options (.overflow, w)
  | printed {program : Text} {encoded : Encoded}
    (hencoded : w.EncodesSource readers options program encoded) (houtput : options.output = none) :
    EncodeEnds readers w options ({ stdout := encoded.text ++ ['\n'] }, w)
  | written {w' : Workspace} {program : Text} {encoded : Encoded}
    (hencoded : w.EncodesSource readers options program encoded) {path : Path}
    (houtput : options.output = some path)
    (hwrite : w.write path (Utf8.encode encoded.text) = .ok w') (stderr : Text) :
    EncodeEnds readers w options ({ stderr }, w')

/-- The response to the result of a command. -/
def respond : Except String Response × Workspace → Response × Workspace
  | (.ok response, w) => (response, w)
  | (.error message, w) => (.complaint message, w)

theorem run_eq_respond {command : Command} {x : StateM Workspace (Except String Response)}
    (h : Command.run readers host command = do
      match ← x with
      | .ok response => return response
      | .error message => return .complaint message) (w : Workspace) :
    (Command.run readers host command).run w = respond (x.run w) := by
  rw [h, StateT.run_bind]
  rcases x.run w with ⟨_ | _, w'⟩
  · rfl
  · rfl

theorem encodeEnds (readers : Readers) (w : Workspace) (options : EncodeOptions) :
    EncodeEnds readers w options ((Command.run readers host (.encode options)).run w) := by
  rw [run_eq_respond (x := (runEncode readers host options).run) rfl, runEncode]
  obtain ⟨config?, hconfig, hconfigured⟩ := run_readConfig readers w options.config
  obtain ⟨what, hsource⟩ := run_readSource w options.input
  -- Nothing before the write changes the workspace, so every refusal comes with `w` itself.
  cases config? with
  | error message =>
    rw [run_bind_of_error hconfig]
    exact .refused message
  | ok config =>
    rw [run_bind_of_ok hconfig]
    cases htext : textOf what (w.source options.input) with
    | error message =>
      rw [htext] at hsource
      rw [run_bind_of_error hsource]
      exact .refused message
    | ok program =>
      rw [htext] at hsource
      rw [run_bind_of_ok hsource]
      cases hencode : encode (override options config) program with
      | error failure =>
        cases failure with
        | overflow => exact .stopped
        | refused e => exact .refused e.message
      | ok encoded =>
        have hencoded : w.EncodesSource readers options program encoded :=
          ⟨textOf_eq_ok_iff.1 htext, config, (hconfigured config).1 rfl, hencode⟩
        cases houtput : options.output with
        | none => exact .printed hencoded houtput
        | some path =>
          have hwritten := run_writeFile w path (Utf8.encode encoded.text)
          cases hwrite : w.write path (Utf8.encode encoded.text) with
          | error fault =>
            rw [hwrite] at hwritten
            simp only [run_bind_of_ok (run_lift hwritten)]
            exact .refused _
          | ok w' =>
            rw [hwrite] at hwritten
            simp only [run_bind_of_ok (run_lift hwritten)]
            exact .written hencoded houtput hwrite _

/-- A program that can be encoded is printed so. -/
theorem run_encode_of_encodes {options : EncodeOptions} {program : Text} {encoded : Encoded}
    (h : w.EncodesSource readers options program encoded) (houtput : options.output = none) :
    (Command.run readers host (.encode options)).run w =
      ({ stdout := encoded.text ++ ['\n'] }, w) := by
  obtain ⟨hsource, config, hconfigured, hencode⟩ := h
  obtain ⟨config?, hconfig, hiff⟩ := run_readConfig readers w options.config
  obtain ⟨what, hread⟩ := run_readSource w options.input
  rw [(hiff config).2 hconfigured] at hconfig
  rw [textOf_eq_ok_iff.2 hsource] at hread
  rw [run_eq_respond (x := (runEncode readers host options).run) rfl, runEncode,
    run_bind_of_ok hconfig, run_bind_of_ok hread, override, hencode, houtput]
  rfl

/-- The result of the decoding command on a text. -/
def decodeText (text : Text) : Except String Response :=
  match decode (trimEnd text) with
  | .ok program => .ok { stdout := program }
  | .error diagnosis => .error diagnosis.message

theorem run_decode (w : Workspace) (input : Option Path) :
    ∃ what, (Command.run readers host (.decode input)).run w =
      respond ((textOf what (w.source input)).bind decodeText, w) := by
  obtain ⟨what, hsource⟩ := run_readSource w input
  refine ⟨what, ?_⟩
  rw [run_eq_respond (x := (runDecode host input).run) rfl, runDecode]
  cases htext : textOf what (w.source input) with
  | error message =>
    rw [htext] at hsource
    rw [run_bind_of_error hsource]
    rfl
  | ok text =>
    rw [htext] at hsource
    rw [run_bind_of_ok hsource, Except.bind, decodeText]
    cases decode (trimEnd text) with
    | ok program => rfl
    | error diagnosis => rfl

theorem run_growth (w : Workspace) (options : GrowthOptions) :
    (Command.run readers host (.growth options)).run w = respond (runGrowth options, w) :=
  run_eq_respond (x := pure (runGrowth options)) rfl w

end Workspace

/-! ## The round trip -/

/-- Line breaks are no symbols, so those behind an encoding are the ones that are dropped. -/
theorem Command.trimEnd_append {text ends : Text} (htext : Alphabet.Spelled text)
    (hends : ∀ c ∈ ends, c = '\n' ∨ c = '\r') : trimEnd (text ++ ends) = text := by
  have hsymbol : ∀ c ∈ Alphabet.symbols, ¬ (c = '\n' || c = '\r') = true := by
    simp [Alphabet.symbols]
  have hdrop : ∀ c ∈ ends.reverse, (c = '\n' || c = '\r') = true := by
    intro c hc
    simpa using hends c (List.mem_reverse.1 hc)
  have hkeep : text.reverse.dropWhile (fun c => c = '\n' || c = '\r') = text.reverse := by
    cases hreverse : text.reverse with
    | nil => rfl
    | cons c rest =>
      have hc : c ∈ text := by
        rw [← List.mem_reverse, hreverse]
        exact List.mem_cons_self
      exact List.dropWhile_cons_of_neg (hsymbol c (htext c hc))
  rw [trimEnd, List.reverse_append, List.dropWhile_append_of_pos hdrop, hkeep, List.reverse_reverse]

theorem Encoder.spelled_encoding (strategy : Strategy) (program : Text) :
    Alphabet.Spelled (encoding strategy program).text :=
  spelled_assemble (codes program (strategy.payload program)) strategy program

/-- A line break is the last byte only of what ends in one. -/
theorem Utf8.getLast?_encode {text ends : Text} (htext : Alphabet.Spelled text) :
    (encode (text ++ ends)).getLast? = some '\n'.toUInt8 ↔
      (encode ends).getLast? = some '\n'.toUInt8 := by
  have hsymbol : ∀ c ∈ Alphabet.symbols, (encode [c]).getLast? = some c.toUInt8 ∧
      c.toUInt8 ≠ '\n'.toUInt8 := by
    simp only [Alphabet.symbols, List.forall_mem_cons, List.not_mem_nil, false_implies,
      implies_true]
    decide
  have hne : (encode text).getLast? ≠ some '\n'.toUInt8 := by
    rcases List.eq_nil_or_concat text with rfl | ⟨front, c, rfl⟩
    · simp [encode]
    · rw [List.concat_eq_append] at htext ⊢
      obtain ⟨hlast, hc⟩ := hsymbol c (htext c List.mem_concat_self)
      rw [encode_append, List.getLast?_append, hlast]
      simpa using hc
  rw [encode_append, List.getLast?_append]
  cases (encode ends).getLast? with
  | none => simpa using hne
  | some b => simp

namespace Workspace

variable {readers : Readers} {w w' : Workspace} {options : EncodeOptions} {response : Response}

/-- What the encoding command has produced: what it printed, or the file that it was told to
write. -/
def product? (options : EncodeOptions) (response : Response) (w' : Workspace) : Option Bytes :=
  match options.output with
  | none => some (Utf8.encode response.stdout)
  | some path =>
    match w'.find path with
    | .file _ bytes => some bytes
    | _ => none

/-- What is printed behind an encoding. A file has nothing there. -/
def printedEnd (options : EncodeOptions) : Text :=
  match options.output with
  | none => ['\n']
  | some _ => []

theorem eq_of_mem_printedEnd {c : Char} (hc : c ∈ printedEnd options) : c = '\n' := by
  unfold printedEnd at hc
  cases houtput : options.output with
  | none =>
    rw [houtput] at hc
    exact List.mem_singleton.1 hc
  | some path =>
    rw [houtput] at hc
    cases hc

theorem getLast?_printedEnd :
    (Utf8.encode (printedEnd options)).getLast? = some '\n'.toUInt8 ↔ options.output = none := by
  unfold printedEnd
  cases options.output with
  | none => decide
  | some path => simp [Utf8.encode]

theorem product?_eq (hrun : (Command.run readers host (.encode options)).run w = (response, w'))
    (hexit : response.exit = 0) :
    ∃ program encoded, w.EncodesSource readers options program encoded ∧
      (product? options response w' = some (Utf8.encode (encoded.text ++ printedEnd options)) ∨
        product? options response w' = none ∧
          ∃ path, options.output = some path ∧ w.find path = .sink) := by
  have hends := encodeEnds readers w options
  rw [hrun] at hends
  cases hends with
  | refused message => cases hexit
  | stopped => cases hexit
  | printed hencoded houtput =>
    refine ⟨_, _, hencoded, .inl ?_⟩
    rw [product?, printedEnd, houtput]
  | written hencoded houtput hwrite stderr =>
    refine ⟨_, _, hencoded, ?_⟩
    rw [product?, printedEnd, houtput, List.append_nil]
    cases written_of_write _ hwrite with
    | file hfind _ _ _ => exact .inl (by simp only [hfind])
    | device hfind => exact .inr ⟨by simp only [hfind], _, rfl, hfind⟩

theorem runCommand_eq {args : List Text} {command : Command}
    (hargs : readers.command args = .ok command) (w : Workspace) :
    w.runCommand readers args = .ok ((Command.run readers host command).run w) := by
  rw [runCommand, hargs]

/-- The decoding command prints the program whose encoding it is given, whatever line breaks stand
behind it. -/
theorem run_decode_of_spelled {input : Option Path} {text ends program : Text}
    (htext : Alphabet.Spelled text) (hends : ∀ c ∈ ends, c = '\n' ∨ c = '\r')
    (hdecode : decode text = .ok program)
    (hsource : w.source input = .ok (Utf8.encode (text ++ ends))) :
    (Command.run readers host (.decode input)).run w = ({ stdout := program }, w) := by
  obtain ⟨what, hrun⟩ := run_decode w input
  rw [hrun, textOf_eq_ok_iff.2 hsource, Except.bind, decodeText, trimEnd_append htext hends,
    hdecode]
  rfl

/-- What the encoding command has produced makes the decoding command print the program that was
encoded, byte for byte. The product is what was printed, which ends in a line break, or the file
that was written, which does not; if there is none, a device has taken it. Whatever line breaks are
put behind it, and whether it is then read from a file or from the standard input, nothing else is
printed and nothing is changed. -/
theorem decode_command_inverts_encode_command {args : List Text}
    (hargs : readers.command args = .ok (.encode options))
    (hrun : w.runCommand readers args = .ok (response, w')) (hexit : response.exit = 0) :
    ∃ program, w.source options.input = .ok (Utf8.encode program) ∧
      (product? options response w' = none →
        ∃ path, options.output = some path ∧ w.find path = .sink) ∧
      ∀ product, product? options response w' = some product →
        (product.getLast? = some '\n'.toUInt8 ↔ options.output = none) ∧
        ∀ ends : Text, (∀ c ∈ ends, c = '\n' ∨ c = '\r') →
          ∀ (args : List Text) (input : Option Path) (w : Workspace),
            readers.command args = .ok (.decode input) →
              w.source input = .ok (product ++ Utf8.encode ends) →
                w.runCommand readers args = .ok ({ stdout := program }, w) := by
  rw [runCommand_eq hargs, Except.ok.injEq] at hrun
  obtain ⟨program, encoded, ⟨hsource, config, -, hencode⟩, hproduct⟩ := product?_eq hrun hexit
  obtain rfl := eq_encoding_of_encode hencode
  refine ⟨program, hsource, ?_, ?_⟩
  · intro hnone
    rcases hproduct with hsome | ⟨-, hsink⟩
    · cases hsome.symm.trans hnone
    · exact hsink
  · intro product hsome
    rcases hproduct with hproduct | ⟨hnone, -⟩
    · obtain rfl := Option.some.inj (hsome.symm.trans hproduct)
      refine ⟨?_, ?_⟩
      · rw [Utf8.getLast?_encode (spelled_encoding _ program), getLast?_printedEnd]
      · intro ends hends args' input w₂ hargs' hsource'
        -- A line break that was printed is one more of those that are dropped.
        rw [← Utf8.encode_append, List.append_assoc] at hsource'
        rw [runCommand_eq hargs', run_decode_of_spelled (spelled_encoding _ program)
          (fun c hc => ?_) (decode_encoding _ program) hsource']
        rcases List.mem_append.1 hc with hc | hc
        · exact .inl (eq_of_mem_printedEnd hc)
        · exact hends c hc
    · cases hnone.symm.trans hsome

/-- A program that ends in line breaks of its own, printed and then read from a file. -/
theorem decode_command_inverts_encode_command_line_breaks :
    ∃ text, runCommand .standard ["encode".toList] { stdin := Utf8.encode ['1', '\r', '\n'] } =
        .ok ({ stdout := text ++ ['\n'] }, { stdin := Utf8.encode ['1', '\r', '\n'] }) ∧
      let w : Workspace :=
        { files := [(["in".toList], Utf8.encode (text ++ ['\n']) ++ Utf8.encode ['\n', '\r'])] }
      w.runCommand .standard ["decode".toList, "in".toList] =
        .ok ({ stdout := ['1', '\r', '\n'] }, w) := by
  have hencode : encode {} ['1', '\r', '\n'] = .ok (encoding default ['1', '\r', '\n']) :=
    encode_of_fits (by decide) (by decide +kernel) (by decide +kernel)
  have hargs : Readers.standard.command ["encode".toList] = .ok (.encode {}) := rfl
  have hrun : runCommand .standard ["encode".toList] { stdin := Utf8.encode ['1', '\r', '\n'] } =
      .ok ({ stdout := (encoding default ['1', '\r', '\n']).text ++ ['\n'] },
        { stdin := Utf8.encode ['1', '\r', '\n'] }) := by
    have hencoded : EncodesSource .standard { stdin := Utf8.encode ['1', '\r', '\n'] } {} _ _ :=
      ⟨rfl, {}, rfl, hencode⟩
    rw [runCommand_eq hargs, run_encode_of_encodes hencoded rfl]
  obtain ⟨program, hsource, -, hproduct⟩ := decode_command_inverts_encode_command hargs hrun rfl
  obtain rfl := Utf8.encode_injective (Except.ok.inj hsource)
  obtain ⟨-, hdecode⟩ := hproduct _ rfl
  exact ⟨_, hrun, hdecode ['\n', '\r'] (by simp) _ (some "in".toList) _ rfl rfl⟩

end Workspace

/-! ## All or nothing -/

namespace Command

theorem ofArguments_of_mem_table {name : String}
    {parse : List Text → Except Arguments.UsageError Command} (h : (name, parse) ∈ table)
    (rest : List Text) :
    ofArguments (name.toList :: rest) = if asksHelp rest then .ok .help else parse rest := by
  simp only [table, List.mem_cons, Prod.mk.injEq, List.not_mem_nil, or_false] at h
  rcases h with ⟨rfl, rfl⟩ | ⟨rfl, rfl⟩ | ⟨rfl, rfl⟩ | ⟨rfl, rfl⟩ | ⟨rfl, rfl⟩ <;> rfl

/-- Whether the command starts other programs. -/
def launches : Command → Bool
  | .check _ => true
  | _ => false

theorem launches_of_ofArguments {name : String} (hname : name ∈ ["encode", "decode", "growth"])
    {rest : List Text} {command : Command} (h : ofArguments (name.toList :: rest) = .ok command) :
    command.launches = false := by
  have hparsed (parse : List Text → Except Arguments.UsageError Command)
      (hmem : (name, parse) ∈ table)
      (hok : parse rest = .ok command → command.launches = false) : command.launches = false := by
    rw [ofArguments_of_mem_table hmem] at h
    split at h
    · cases h
      rfl
    · exact hok h
  simp only [List.mem_cons, List.not_mem_nil, or_false] at hname
  rcases hname with rfl | rfl | rfl
  · refine hparsed parseEncode (by simp [table]) fun h => ?_
    simp only [parseEncode, bind_eq_ok_iff] at h
    obtain ⟨_, -, _, -, _, -, _, -, _, -, h⟩ := h
    cases h
    rfl
  · refine hparsed parseDecode (by simp [table]) fun h => ?_
    simp only [parseDecode, bind_eq_ok_iff] at h
    obtain ⟨_, -, _, -, h⟩ := h
    cases h
    rfl
  · refine hparsed parseGrowth (by simp [table]) fun h => ?_
    simp only [parseGrowth, bind_eq_ok_iff] at h
    obtain ⟨_, -, _, -, _, -, _, -, h⟩ := h
    cases h
    rfl

/-- What a command that has succeeded leaves. -/
def Leaves (readers : Readers) (w w' : Workspace) : Command → Prop
  | .encode options => ∃ program encoded, w.EncodesSource readers options program encoded ∧
    match options.output with
    | none => w' = w
    | some path => w.Written path (Utf8.encode encoded.text) w'
  | _ => w' = w

/-- A command that fails has printed nothing and changed nothing. -/
structure AllOrNothing (readers : Readers) (w : Workspace) (command : Command)
    (response : Response) (w' : Workspace) : Prop where
  nothing : response.exit ≠ 0 → response.stdout = [] ∧ w' = w
  all : response.exit = 0 → command.Leaves readers w w'

end Command

namespace Workspace

variable {readers : Readers}

theorem allOrNothing_respond {command : Command} {result : Except String Response} {w : Workspace}
    (hok : ∀ response, result = .ok response → response.exit ≠ 0 → response.stdout = [])
    (hleaves : command.Leaves readers w w) :
    AllOrNothing readers w command (respond (result, w)).1 (respond (result, w)).2 := by
  cases result with
  | error message => exact ⟨fun _ => ⟨rfl, rfl⟩, nofun⟩
  | ok response => exact ⟨fun h => ⟨hok response rfl h, rfl⟩, fun _ => hleaves⟩

theorem exit_of_decodeText {text : Text} {response : Response}
    (h : decodeText text = .ok response) : response.exit = 0 := by
  unfold decodeText at h
  split at h
  · cases h
    rfl
  · cases h

theorem stdout_of_runGrowth {options : GrowthOptions} {response : Response}
    (h : runGrowth options = .ok response) (hexit : response.exit ≠ 0) : response.stdout = [] := by
  simp only [runGrowth] at h
  split at h
  · cases h
    rfl
  · cases h
  · cases h
    exact absurd rfl hexit

theorem allOrNothing_of_encodeEnds {w w' : Workspace} {options : EncodeOptions}
    {response : Response} (h : EncodeEnds readers w options (response, w')) :
    AllOrNothing readers w (.encode options) response w' := by
  cases h with
  | refused message => exact ⟨fun _ => ⟨rfl, rfl⟩, nofun⟩
  | stopped => exact ⟨fun _ => ⟨rfl, rfl⟩, nofun⟩
  | printed hencoded houtput =>
    refine ⟨fun h => absurd rfl h, fun _ => ⟨_, _, hencoded, ?_⟩⟩
    rw [houtput]
  | written hencoded houtput hwrite stderr =>
    refine ⟨fun h => absurd rfl h, fun _ => ⟨_, _, hencoded, ?_⟩⟩
    rw [houtput]
    exact written_of_write _ hwrite

theorem allOrNothing_run {command : Command} (h : command.launches = false) (w : Workspace) :
    AllOrNothing readers w command ((Command.run readers host command).run w).1
      ((Command.run readers host command).run w).2 := by
  cases command with
  | encode options => exact allOrNothing_of_encodeEnds (encodeEnds readers w options)
  | decode input =>
    obtain ⟨what, hrun⟩ := run_decode w input
    rw [hrun]
    refine allOrNothing_respond (fun response hok hexit => ?_) rfl
    obtain ⟨text, -, hok⟩ := bind_eq_ok_iff.1 hok
    exact absurd (exit_of_decodeText hok) hexit
  | growth options =>
    rw [run_growth]
    exact allOrNothing_respond (fun _ => stdout_of_runGrowth) rfl
  | check options => cases h
  | completions _ | version | help => exact ⟨fun h => absurd rfl h, fun _ => rfl⟩

/-- The encoding, decoding and measuring commands do all or nothing, however arguments and settings
are read. Arguments that are no command run none. With the usual readers the names of the three give
no command that starts other programs. -/
theorem commands_do_all_or_nothing :
    (∀ (readers : Readers) (args : List Text) (w : Workspace),
      match readers.command args with
      | .error refusal => w.runCommand readers args = .error refusal
      | .ok command => command.launches = false →
        ∃ response w', w.runCommand readers args = .ok (response, w') ∧
          (response.exit ≠ 0 → response.stdout = [] ∧ w' = w) ∧
          (response.exit = 0 → command.Leaves readers w w')) ∧
    ∀ name ∈ ["encode", "decode", "growth"], ∀ (rest : List Text) (command : Command),
      Readers.standard.command (name.toList :: rest) = .ok command → command.launches = false := by
  refine ⟨fun readers args w => ?_, fun name hname rest command => launches_of_ofArguments hname⟩
  cases hargs : readers.command args with
  | error refusal => simp only [runCommand, hargs]
  | ok command =>
    intro hlaunches
    obtain ⟨hnothing, hall⟩ := allOrNothing_run hlaunches w
    exact ⟨_, _, runCommand_eq hargs w, hnothing, hall⟩

/-- The file that was to be overwritten keeps its content if there is no input. -/
theorem commands_do_all_or_nothing_missing_input :
    ∃ response, runCommand .standard ["encode".toList, "in".toList, "-o".toList, "out".toList]
        { files := [(["out".toList], [7])] } =
          .ok (response, { files := [(["out".toList], [7])] }) ∧
      response.exit = 1 ∧ response.stdout = [] := by
  obtain ⟨hall, hnames⟩ := commands_do_all_or_nothing
  have hargs : Readers.standard.command
      ["encode".toList, "in".toList, "-o".toList, "out".toList] =
        .ok (.encode { input := some "in".toList, output := some "out".toList }) := rfl
  have hcommand := hall .standard ["encode".toList, "in".toList, "-o".toList, "out".toList]
    { files := [(["out".toList], [7])] }
  rw [hargs] at hcommand
  obtain ⟨response, w', hrun, hnothing, -⟩ := hcommand (hnames "encode" (by decide) _ _ hargs)
  have hexit : response.exit = 1 := by
    cases hrun
    rfl
  obtain ⟨hstdout, rfl⟩ := hnothing (by rw [hexit]; decide)
  exact ⟨response, hrun, hexit, hstdout⟩

end Workspace

end Octoglyph
