import RiscAssembly.Proofs.Faults

/-!
What instructions expand to. The tables of the pseudo-instructions and of the catalogue have
no mnemonic in common, and each expansion is made of instructions of the catalogue with as
many operands as these take; so an expansion is the same when it is expanded again. The
tokens that an expansion adds are always of the right kind. Whether it encodes is up to the
operands that it copies: each has to be a register or a literal, as the places ask that it
is copied to.
-/

namespace RiscAssembly

open Text BitString

/-- The roles of the operands under a pattern, a register jump with its base in front. -/
def OperandPattern.roles (pattern : OperandPattern) : List OperandRole := pattern.orders.headD []

def rolesOf (mnemonic : Text) : List OperandRole :=
  ((Catalogue.find? mnemonic).map fun descriptor => descriptor.pattern.roles).getD []

/-- The token of an expansion at a place behind the mnemonic of one of its instructions. -/
def tokenAt? (machine : List (List Text)) (line place : Nat) : Option Text :=
  machine[line]?.bind fun tokens => tokens.tail[place]?

/-- What the instruction asks for at that place. -/
def roleAt? (machine : List (List Text)) (line place : Nat) : Option OperandRole :=
  machine[line]?.bind fun tokens => (rolesOf (tokens.headD []))[place]?

namespace Pseudo

/-- The operand is what stands at the place, whatever the operands are. -/
def Copies (pseudo : Pseudo) (index line place : Nat) : Prop :=
  ∀ operands machine, pseudo.expand operands = .ok machine →
    ∃ operand, operands[index]? = some operand ∧ tokenAt? machine line place = some operand

/-- Each operand is a register or a literal as every place asks that it is copied to. -/
def Suits (pseudo : Pseudo) (operands : List Text) (machine : List (List Text)) : Prop :=
  ∀ index line place, pseudo.Copies index line place →
    ∀ operand, operands[index]? = some operand →
      ∃ role, roleAt? machine line place = some role ∧ role.Accepts operand

end Pseudo

/-- An instruction of the catalogue that stands for no other. -/
inductive IsMachineForm : List Text → Prop
  | tokens (mnemonic : Text) (operands : List Text) (descriptor : Descriptor)
      (listed : Catalogue.find? mnemonic = some descriptor)
      (final : Pseudo.find? mnemonic = none) : IsMachineForm (mnemonic :: operands)

/-- An instruction with as many operands as its descriptor asks for. -/
inductive IsCounted : List Text → Prop
  | tokens (mnemonic : Text) (operands : List Text) (descriptor : Descriptor)
      (listed : Catalogue.find? mnemonic = some descriptor)
      (counted : operands.length = descriptor.pattern.arity) : IsCounted (mnemonic :: operands)

/-- Why tokens stand for no machine instructions. -/
inductive Unexpandable : List Text → InstructionError → Prop
  | empty : Unexpandable [] (.unsupportedMnemonic [])
  | mnemonic (mnemonic : Text) (operands : List Text) (notPseudo : Pseudo.find? mnemonic = none)
      (unlisted : Catalogue.find? mnemonic = none) :
      Unexpandable (mnemonic :: operands) (.unsupportedMnemonic mnemonic)
  | arity (mnemonic : Text) (operands : List Text) (pseudo : Pseudo)
      (found : Pseudo.find? mnemonic = some pseudo)
      (miscounted : operands.length ≠ pseudo.arity) :
      Unexpandable (mnemonic :: operands) (.operandArity mnemonic pseudo.arity operands.length)
  | literal (mnemonic rd literal : Text)
      (load : mnemonic = "la".toList ∨ mnemonic = "li".toList)
      (unread : Literal.value? literal = none) :
      Unexpandable [mnemonic, rd, literal] (.literalFormat literal)

/-! Lists that are related place by place. -/

section Related

variable {First Second : Type} {Related : First → Second → Prop}
variable {firsts : List First} {seconds : List Second}

theorem related_at (related : List.Forall₂ Related firsts seconds) (place : Nat) (first : First)
    (found : firsts[place]? = some first) :
    ∃ second, seconds[place]? = some second ∧ Related first second := by
  induction related generalizing place with
  | nil => cases found
  | @cons _ second _ _ here _ ih =>
      cases place with
      | zero =>
          cases found
          exact ⟨second, rfl, here⟩
      | succ place => exact ih place found

theorem related_of_places (lengths : firsts.length = seconds.length)
    (each : ∀ (place : Nat) (first : First) (second : Second), firsts[place]? = some first →
      seconds[place]? = some second → Related first second) :
    List.Forall₂ Related firsts seconds := by
  rw [List.forall₂_iff_get]
  refine ⟨lengths, fun place inside inside' => each place _ _ ?_ ?_⟩
  · exact List.getElem?_eq_getElem inside
  · exact List.getElem?_eq_getElem inside'

end Related

/-! Where the operands of an expansion come from. -/

/-- An instruction of an expansion before the operands are known: for each place the index of
the operand that is copied there, or nothing where the expansion has a token of its own. -/
structure Frame where
  mnemonic : Text
  sources : List (Option Nat)
  deriving DecidableEq

def Slot.source : Slot → Option Nat
  | .operand index => some index
  | .token _ => none

def Expansion.frames : Expansion → List Frame
  | .template (.token mnemonic :: slots) => [⟨mnemonic, slots.map Slot.source⟩]
  | .template _ => []
  | .loadAddress => [⟨"lui".toList, [some 0, none]⟩, ⟨"addi".toList, [some 0, some 0, none]⟩]
  | .loadImmediate =>
      let clear : Frame := ⟨"addi".toList, [some 0, none, none]⟩
      let add : Frame := ⟨"addi20u".toList, [some 0, none]⟩
      let room : Frame := ⟨"slli".toList, [some 0, some 0, none]⟩
      [clear, add, room, add, room, add, room, add]

/-- What stands at a place: the operand that is copied there, or a token of the kind that its
role asks for. -/
def StandsAt (operands : List Text) : OperandRole × Option Nat → Text → Prop
  | (_, some index), token => operands[index]? = some token
  | (role, none), token => role.Accepts token

inductive Frame.Filled (operands : List Text) (frame : Frame) : List Text → Prop
  | tokens (arguments : List Text)
      (each : List.Forall₂ (StandsAt operands) ((rolesOf frame.mnemonic).zip frame.sources)
        arguments) :
      frame.Filled operands (frame.mnemonic :: arguments)

/-- The frame of an instruction of the catalogue, whose operands are taken in one order only. -/
structure Frame.Sound (frame : Frame) (descriptor : Descriptor) : Prop where
  listed : Catalogue.find? frame.mnemonic = some descriptor
  final : Pseudo.find? frame.mnemonic = none
  counted : frame.sources.length = descriptor.pattern.arity
  ordered : descriptor.pattern = .jumpRegister → frame.sources[2]? = some none

def Frame.isSound (frame : Frame) : Bool :=
  (Pseudo.find? frame.mnemonic).isNone &&
    (Catalogue.find? frame.mnemonic).any fun descriptor =>
      decide (frame.sources.length = descriptor.pattern.arity) &&
        (decide (descriptor.pattern ≠ .jumpRegister) || decide (frame.sources[2]? = some none))

theorem Frame.sound_of_isSound (frame : Frame) (checked : frame.isSound = true) :
    ∃ descriptor, frame.Sound descriptor := by
  simp only [Frame.isSound, Bool.and_eq_true, Option.isNone_iff_eq_none, Option.any_eq_true,
    Bool.or_eq_true, decide_eq_true_eq] at checked
  obtain ⟨final, descriptor, listed, counted, ordered⟩ := checked
  refine ⟨descriptor, listed, final, counted, ?_⟩
  intro jump
  exact ordered.resolve_left (absurd jump)

/-- The slot is filled by an operand, or with a token of the kind that the role asks for. -/
def OperandRole.allows : OperandRole → Slot → Bool
  | _, .operand _ => true
  | .number, .token text => (Literal.value? text).isSome
  | _, .token text => (Register.ofName? text).isSome

/-- The tokens of a template are of the kinds that their places ask for. -/
def Expansion.isFitting : Expansion → Bool
  | .template (.token mnemonic :: slots) =>
      ((rolesOf mnemonic).zip slots).all fun place => place.1.allows place.2
  | .template _ => false
  | _ => true

theorem Pseudo.frames_checked (pseudo : Pseudo) (member : pseudo ∈ all) :
    pseudo.expansion.isFitting = true ∧
      ∀ frame ∈ pseudo.expansion.frames, ∃ descriptor, frame.Sound descriptor := by
  have table : ∀ p ∈ all, p.expansion.isFitting = true ∧
      ∀ frame ∈ p.expansion.frames, frame.isSound = true := by decide
  obtain ⟨fitting, checked⟩ := table pseudo member
  exact ⟨fitting, fun frame listed => frame.sound_of_isSound (checked frame listed)⟩

theorem OperandPattern.roles_length (pattern : OperandPattern) :
    pattern.roles.length = pattern.arity := by
  cases pattern <;> rfl

theorem OperandPattern.roles_ordered (pattern : OperandPattern) :
    pattern.roles ∈ pattern.orders := by
  cases pattern <;> exact List.mem_cons_self

theorem rolesOf_listed (mnemonic : Text) (descriptor : Descriptor)
    (listed : Catalogue.find? mnemonic = some descriptor) :
    rolesOf mnemonic = descriptor.pattern.roles := by
  rw [rolesOf, listed, Option.map_some, Option.getD_some]

theorem OperandRole.accepts_token (role : OperandRole) (text : Text)
    (allowed : role.allows (.token text) = true) : role.Accepts text := by
  cases role with
  | number => exact (accepts_literal_iff text).mpr (Option.isSome_iff_exists.mp allowed)
  | _ => exact (accepts_register_iff text).mpr (Option.isSome_iff_exists.mp allowed)

theorem Slot.fill_operand_iff (operands : List Text) (index : Nat) (token : Text) :
    Slot.fill operands (.operand index) = .ok token ↔ operands[index]? = some token := by
  cases found : operands[index]? <;> simp [Slot.fill, found]

/-- The arguments of a template stand where its slots are. -/
theorem standsAt_filled (operands : List Text) (roles : List OperandRole) (slots : List Slot)
    (arguments : List Text) (lengths : roles.length = slots.length)
    (fitting : (roles.zip slots).all (fun place => place.1.allows place.2) = true)
    (filled : slots.map (Slot.fill operands) = arguments.map .ok) :
    List.Forall₂ (StandsAt operands) (roles.zip (slots.map Slot.source)) arguments := by
  induction slots generalizing roles arguments with
  | nil =>
      rw [List.map_nil, eq_comm, List.map_eq_nil_iff] at filled
      rw [filled, List.map_nil, List.zip_nil_right]
      exact .nil
  | cons slot slots ih =>
      rcases roles with _ | ⟨role, roles⟩
      · cases lengths
      rcases arguments with _ | ⟨argument, arguments⟩
      · cases filled
      rw [List.map_cons, List.map_cons, List.cons.injEq] at filled
      rw [List.zip_cons_cons, List.all_cons, Bool.and_eq_true] at fitting
      rw [List.map_cons, List.zip_cons_cons]
      refine .cons ?_ (ih roles arguments (Nat.succ.inj lengths) fitting.2 filled.2)
      cases slot with
      | token text =>
          have same : text = argument := Except.ok.inj filled.1
          exact same ▸ role.accepts_token text fitting.1
      | operand index =>
          exact (Slot.fill_operand_iff operands index argument).mp filled.1

theorem Frame.Sound.roles {frame : Frame} {descriptor : Descriptor}
    (sound : frame.Sound descriptor) :
    rolesOf frame.mnemonic = descriptor.pattern.roles ∧
      descriptor.pattern.roles.length = frame.sources.length :=
  ⟨rolesOf_listed frame.mnemonic descriptor sound.listed,
    descriptor.pattern.roles_length.trans sound.counted.symm⟩

theorem loadChunks_filled (rd literal : Text) (n : Nat) :
    List.Forall₂ (Frame.Filled [rd, literal]) Expansion.loadImmediate.frames
      (loadChunks rd n) := by
  have number (token : Text) := (accepts_literal_iff token).mpr
  have add (width n : Nat) (narrow : width ≤ 64) :
      Frame.Filled [rd, literal] ⟨"addi20u".toList, [some 0, none]⟩
        (addChunk rd (binary width n)) :=
    .tokens _ (.cons rfl (.cons (number _ (isLiteral_chunk width n narrow)) .nil))
  have room : Frame.Filled [rd, literal] ⟨"slli".toList, [some 0, some 0, none]⟩ (makeRoom rd) :=
    .tokens _ (.cons rfl (.cons rfl (.cons ⟨_, rfl⟩ .nil)))
  have clear : Frame.Filled [rd, literal] ⟨"addi".toList, [some 0, none, none]⟩
      ["addi".toList, rd, "zero".toList, "0".toList] :=
    .tokens _ (.cons rfl (.cons ⟨_, rfl⟩ (.cons ⟨_, rfl⟩ .nil)))
  exact .cons clear (.cons (add 4 _ (by decide)) (.cons room (.cons (add 20 _ (by decide))
    (.cons room (.cons (add 20 _ (by decide)) (.cons room (.cons (add 20 _ (by decide)) .nil)))))))

theorem Expansion.load_filled (expansion : Expansion)
    (load : expansion = .loadAddress ∨ expansion = .loadImmediate) (operands : List Text)
    (machine : List (List Text)) (applied : expansion.apply operands = .ok machine) :
    List.Forall₂ (Frame.Filled operands) expansion.frames machine := by
  obtain ⟨rd, literal, n, rfl, -, rfl⟩ := expansion.load_ok load operands machine applied
  have number (token : Text) := (accepts_literal_iff token).mpr
  rcases load with rfl | rfl
  · exact .cons (.tokens _ (.cons rfl (.cons (number _ (isLiteral_upper _ _)) .nil)))
      (.cons (.tokens _ (.cons rfl (.cons rfl (.cons (number _ (isLiteral_lower _)) .nil)))) .nil)
  · exact loadChunks_filled rd literal n

theorem Pseudo.expand_filled (pseudo : Pseudo) (member : pseudo ∈ all) (operands : List Text)
    (machine : List (List Text)) (expanded : pseudo.expand operands = .ok machine) :
    List.Forall₂ (Frame.Filled operands) pseudo.expansion.frames machine := by
  obtain ⟨fitting, sound⟩ := pseudo.frames_checked member
  obtain ⟨-, applied⟩ := (pseudo.expand_ok_iff member operands machine).mp expanded
  generalize pseudo.expansion = expansion at fitting sound applied
  cases expansion with
  | template slots =>
      rcases slots with _ | ⟨_ | mnemonic, slots⟩
      · cases fitting
      · cases fitting
      · obtain ⟨descriptor, frame⟩ := sound _ List.mem_cons_self
        simp only [Expansion.apply, bind_ok_iff, pure_ok_iff, fillAll_ok_iff] at applied
        obtain ⟨tokens, filled, rfl⟩ := applied
        cases tokens with
        | nil => cases filled
        | cons token arguments =>
            rw [List.map_cons, List.map_cons, List.cons.injEq] at filled
            obtain rfl : mnemonic = token := Except.ok.inj filled.1
            have lengths := frame.roles.2
            rw [List.length_map, ← frame.roles.1] at lengths
            exact .cons (.tokens arguments
              (standsAt_filled operands _ slots arguments lengths fitting filled.2)) .nil
  | loadAddress => exact Expansion.load_filled _ (.inl rfl) operands machine applied
  | loadImmediate => exact Expansion.load_filled _ (.inr rfl) operands machine applied

/-! Encoding what was filled. -/

/-- Operands are accepted in the order of the pattern. The other order of a register jump is
out of question where its last operand is a literal. -/
theorem encode_roles_iff (mnemonic : Text) (arguments : List Text) (descriptor : Descriptor)
    (listed : Catalogue.find? mnemonic = some descriptor)
    (counted : arguments.length = descriptor.pattern.arity)
    (ordered : descriptor.pattern = .jumpRegister →
      ∃ offset, arguments[2]? = some offset ∧ IsLiteral offset) :
    (∃ word, encode (mnemonic :: arguments) = .ok word) ↔
      List.Forall₂ OperandRole.Accepts descriptor.pattern.roles arguments := by
  constructor
  · rintro ⟨word, encoded⟩
    obtain ⟨other, roles, instruction⟩ := isInstruction_of_encode _ word encoded
    cases instruction with
    | tokens _ _ _ _ found _ written accepted =>
        rw [listed] at found
        cases found
        cases shape : descriptor.pattern with
        | jumpRegister =>
            rcases List.mem_pair.mp (shape ▸ written) with rfl | rfl
            · exact accepted
            · -- The base would come last, where a literal stands.
              obtain ⟨first, second, third, rfl, -, -, base⟩ := accepted_three accepted
              obtain ⟨_, ⟨⟩, literal⟩ := ordered shape
              obtain ⟨register, named⟩ := (accepts_register_iff third).mp base
              rw [literal.not_register] at named
              cases named
        | _ =>
            obtain rfl := List.mem_singleton.mp (shape ▸ written)
            exact accepted
  · intro accepted
    obtain ⟨word, encoded, -⟩ := encode_fills (mnemonic :: arguments) descriptor
      descriptor.pattern.roles (.tokens mnemonic arguments descriptor _ listed counted
        descriptor.pattern.roles_ordered accepted)
    exact ⟨word, encoded⟩

namespace Frame

variable {frame : Frame} {descriptor : Descriptor} (sound : frame.Sound descriptor)
variable {operands arguments : List Text}
variable (each : List.Forall₂ (StandsAt operands) ((rolesOf frame.mnemonic).zip frame.sources)
  arguments)

include sound each

theorem arguments_length : arguments.length = descriptor.pattern.arity := by
  rw [← each.length_eq, sound.roles.1, List.length_zip, sound.roles.2, Nat.min_self, sound.counted]

theorem arguments_at (place : Nat) (role : OperandRole) (source : Option Nat)
    (asked : descriptor.pattern.roles[place]? = some role)
    (given : frame.sources[place]? = some source) :
    ∃ token, arguments[place]? = some token ∧ StandsAt operands (role, source) token := by
  rw [sound.roles.1] at each
  exact related_at each place (role, source) (List.getElem?_zip_eq_some.mpr ⟨asked, given⟩)

theorem encode_iff :
    (∃ word, encode (frame.mnemonic :: arguments) = .ok word) ↔
      List.Forall₂ OperandRole.Accepts descriptor.pattern.roles arguments := by
  refine encode_roles_iff frame.mnemonic arguments descriptor sound.listed
    (arguments_length sound each) ?_
  intro jump
  obtain ⟨token, found, accepted⟩ := arguments_at sound each 2 .number none (by rw [jump]; rfl)
    (sound.ordered jump)
  exact ⟨token, found, (accepts_literal_iff token).mp accepted⟩

end Frame

theorem encodeAll_ok_iff_each (machine : List (List Text)) :
    (∃ words, encodeAll machine = .ok words) ↔
      ∀ tokens ∈ machine, ∃ word, encode tokens = .ok word := by
  rw [encodeAll_eq_mapM]
  constructor
  · rintro ⟨words, encoded⟩
    exact mapM_ok_mem encode machine words encoded
  · exact mapM_ok_of_mem encode machine

namespace Pseudo

variable (pseudo : Pseudo) (member : pseudo ∈ all) (operands : List Text)
variable (machine : List (List Text)) (expanded : pseudo.expand operands = .ok machine)

include member

/-- A place that a frame has a source for is one that the operand is copied to. -/
theorem copies_of_frame (line place : Nat) (frame : Frame) (role : OperandRole) (index : Nat)
    (made : pseudo.expansion.frames[line]? = some frame)
    (asked : (rolesOf frame.mnemonic)[place]? = some role)
    (given : frame.sources[place]? = some (some index)) : pseudo.Copies index line place := by
  intro operands machine expanded
  obtain ⟨descriptor, sound⟩ :=
    (pseudo.frames_checked member).2 frame (List.mem_of_getElem? made)
  obtain ⟨_, found, ⟨arguments, each⟩⟩ :=
    related_at (pseudo.expand_filled member operands machine expanded) line frame made
  rw [sound.roles.1] at asked
  obtain ⟨token, placed, copied⟩ :=
    Frame.arguments_at sound each place role (some index) asked given
  refine ⟨token, copied, ?_⟩
  rw [tokenAt?, found]
  exact placed

include expanded

theorem line_frame (line : Nat) (tokens : List Text) (found : machine[line]? = some tokens) :
    ∃ frame descriptor arguments, pseudo.expansion.frames[line]? = some frame ∧
      frame.Sound descriptor ∧ tokens = frame.mnemonic :: arguments ∧
      List.Forall₂ (StandsAt operands) ((rolesOf frame.mnemonic).zip frame.sources) arguments := by
  obtain ⟨frame, made, filled⟩ :=
    related_at (pseudo.expand_filled member operands machine expanded).flip line tokens found
  obtain ⟨descriptor, sound⟩ :=
    (pseudo.frames_checked member).2 frame (List.mem_of_getElem? made)
  obtain ⟨arguments, each⟩ := filled
  exact ⟨frame, descriptor, arguments, made, sound, rfl, each⟩

theorem encodes_iff_suits :
    (∃ words, encodeAll machine = .ok words) ↔ pseudo.Suits operands machine := by
  rw [encodeAll_ok_iff_each]
  constructor
  · intro encodes index line place copies operand given
    obtain ⟨_, same, placed⟩ := copies operands machine expanded
    rw [given] at same
    cases same
    obtain ⟨tokens, found, behind⟩ := Option.bind_eq_some_iff.mp placed
    obtain ⟨frame, descriptor, arguments, -, sound, rfl, each⟩ :=
      pseudo.line_frame member operands machine expanded line tokens found
    have accepted := (Frame.encode_iff sound each).mp (encodes _ (List.mem_of_getElem? found))
    obtain ⟨role, asked, accepts⟩ := related_at accepted.flip place operand behind
    refine ⟨role, ?_, accepts⟩
    rw [roleAt?, found, Option.bind_some, List.headD_cons, sound.roles.1, asked]
  · intro suits tokens listed
    obtain ⟨line, found⟩ := List.mem_iff_getElem?.mp listed
    obtain ⟨frame, descriptor, arguments, made, sound, rfl, each⟩ :=
      pseudo.line_frame member operands machine expanded line tokens found
    rw [Frame.encode_iff sound each]
    apply related_of_places
    · rw [descriptor.pattern.roles_length, Frame.arguments_length sound each]
    · intro place role argument asked placed
      have inside : place < frame.sources.length := by
        rw [← sound.roles.2]
        exact (List.getElem?_eq_some_iff.mp asked).1
      obtain ⟨token, same, stands⟩ := Frame.arguments_at sound each place role _ asked
        (List.getElem?_eq_getElem inside)
      rw [placed] at same
      cases same
      -- A token of the expansion itself fits; a copied operand does because it suits the place.
      cases source : frame.sources[place] with
      | none =>
          rw [source] at stands
          exact stands
      | some index =>
          rw [source] at stands
          have given : frame.sources[place]? = some (some index) := by
            rw [List.getElem?_eq_getElem inside, source]
          have copies := pseudo.copies_of_frame member line place frame role index made
            (by rw [sound.roles.1, asked]) given
          obtain ⟨other, asked', accepts⟩ := suits index line place copies argument stands
          rw [roleAt?, found, Option.bind_some, List.headD_cons, sound.roles.1, asked] at asked'
          cases asked'
          exact accepts

theorem line_form (tokens : List Text) (listed : tokens ∈ machine) :
    IsMachineForm tokens ∧ IsCounted tokens := by
  obtain ⟨line, found⟩ := List.mem_iff_getElem?.mp listed
  obtain ⟨frame, descriptor, arguments, -, sound, rfl, each⟩ :=
    pseudo.line_frame member operands machine expanded line tokens found
  exact ⟨.tokens _ _ descriptor sound.listed sound.final,
    .tokens _ _ descriptor sound.listed (Frame.arguments_length sound each)⟩

end Pseudo

theorem expand_pseudo (mnemonic : Text) (operands : List Text) (pseudo : Pseudo)
    (found : Pseudo.find? mnemonic = some pseudo) :
    expand (mnemonic :: operands) = pseudo.expand operands := by
  rw [expand, found]

theorem expand_machineForm (tokens : List Text) (form : IsMachineForm tokens) :
    expand tokens = .ok [tokens] := by
  obtain ⟨mnemonic, operands, descriptor, listed, final⟩ := form
  rw [expand, final, listed]

theorem expand_isMachineForm (mnemonic : Text) (operands : List Text) (machine : List (List Text))
    (expanded : expand (mnemonic :: operands) = .ok machine) :
    ∀ tokens ∈ machine, IsMachineForm tokens := by
  intro tokens listed
  rcases (expand_ok_iff mnemonic operands machine).mp expanded with
    ⟨pseudo, found, -⟩ | ⟨final, known, rfl⟩
  · rw [expand_pseudo mnemonic operands pseudo found] at expanded
    exact (pseudo.line_form (List.mem_of_find?_eq_some found) operands machine expanded tokens
      listed).1
  · obtain ⟨descriptor, entry⟩ := Option.isSome_iff_exists.mp known
    rw [List.mem_singleton.mp listed]
    exact .tokens mnemonic operands descriptor entry final

/-! What is not expanded. -/

theorem fillAll_ok (operands : List Text) (slots : List Slot)
    (within : (Expansion.template slots).asksWithin operands.length = true) :
    ∃ tokens, slots.mapM (Slot.fill operands) = .ok tokens := by
  apply mapM_ok_of_mem
  intro slot listed
  cases slot with
  | token text => exact ⟨text, rfl⟩
  | operand index =>
      have inside : index < operands.length := by
        simpa using List.all_eq_true.mp within _ listed
      exact ⟨_, (Slot.fill_operand_iff operands index _).mpr (List.getElem?_eq_getElem inside)⟩

theorem Expansion.load_error_iff (expansion : Expansion)
    (load : expansion = .loadAddress ∨ expansion = .loadImmediate) (rd literal : Text)
    (cause : InstructionError) :
    expansion.apply [rd, literal] = .error cause ↔
      Literal.value? literal = none ∧ cause = .literalFormat literal := by
  rw [expansion.apply_load load, bind_error_iff, Literal.number_error_iff]
  simp [pure, Except.pure]

theorem Expansion.apply_error_iff (expansion : Expansion) (operands : List Text)
    (within : expansion.asksWithin operands.length = true) (cause : InstructionError) :
    expansion.apply operands = .error cause ↔
      (expansion = .loadAddress ∨ expansion = .loadImmediate) ∧
        ∃ rd literal, operands = [rd, literal] ∧ Literal.value? literal = none ∧
          cause = .literalFormat literal := by
  cases expansion with
  | template slots =>
      obtain ⟨tokens, filled⟩ := fillAll_ok operands slots within
      simp [Expansion.apply, filled, bind, Except.bind, pure, Except.pure]
  | loadAddress =>
      obtain ⟨rd, literal, rfl⟩ := List.length_eq_two.mp (of_decide_eq_true within)
      simp [load_error_iff]
  | loadImmediate =>
      obtain ⟨rd, literal, rfl⟩ := List.length_eq_two.mp (of_decide_eq_true within)
      simp [load_error_iff]

theorem Pseudo.expand_error_iff (pseudo : Pseudo) (member : pseudo ∈ all) (operands : List Text)
    (cause : InstructionError) :
    pseudo.expand operands = .error cause ↔
      operands.length ≠ pseudo.arity ∧
          cause = .operandArity pseudo.mnemonic pseudo.arity operands.length ∨
        (pseudo.mnemonic = "la".toList ∨ pseudo.mnemonic = "li".toList) ∧
          ∃ rd literal, operands = [rd, literal] ∧ Literal.value? literal = none ∧
            cause = .literalFormat literal := by
  have table : ∀ p ∈ all, p.expansion.asksWithin p.arity = true ∧
      ((p.expansion = .loadAddress ∨ p.expansion = .loadImmediate) ↔
        (p.mnemonic = "la".toList ∨ p.mnemonic = "li".toList)) ∧
      (p.mnemonic = "la".toList ∨ p.mnemonic = "li".toList → p.arity = 2) := by decide
  obtain ⟨within, loads, two⟩ := table pseudo member
  by_cases counted : operands.length = pseudo.arity
  · rw [← counted] at within
    -- The check of the size never fails, as the table declares the sizes of its expansions.
    have sized (machine : List (List Text))
        (applied : pseudo.expansion.apply operands = .ok machine) :
        machine.length * 4 = pseudo.size := by
      rw [pseudo.expansion.apply_length operands machine applied, pseudo.size_declared member]
    rw [Pseudo.expand, if_pos counted, bind_error_iff,
      pseudo.expansion.apply_error_iff operands within, loads]
    constructor
    · rintro (failed | ⟨machine, applied, failed⟩)
      · exact .inr failed
      · rw [if_pos (sized machine applied)] at failed
        cases failed
    · rintro (⟨miscounted, -⟩ | failed)
      · exact absurd counted miscounted
      · exact .inl failed
  · rw [Pseudo.expand, if_neg counted]
    constructor
    · intro failed
      cases failed
      exact .inl ⟨counted, rfl⟩
    · rintro (⟨-, rfl⟩ | ⟨load, rd, literal, rfl, -⟩)
      · rfl
      · exact absurd (two load).symm counted

theorem expand_pseudo_error_iff (mnemonic : Text) (operands : List Text) (pseudo : Pseudo)
    (found : Pseudo.find? mnemonic = some pseudo) (cause : InstructionError) :
    expand (mnemonic :: operands) = .error cause ↔
      operands.length ≠ pseudo.arity ∧
          cause = .operandArity mnemonic pseudo.arity operands.length ∨
        (mnemonic = "la".toList ∨ mnemonic = "li".toList) ∧
          ∃ rd literal, operands = [rd, literal] ∧ Literal.value? literal = none ∧
            cause = .literalFormat literal := by
  obtain rfl : pseudo.mnemonic = mnemonic := by simpa using List.find?_some found
  rw [expand_pseudo _ operands pseudo found]
  exact pseudo.expand_error_iff (List.mem_of_find?_eq_some found) operands cause

theorem Unexpandable.expand_eq {tokens : List Text} {cause : InstructionError}
    (refused : Unexpandable tokens cause) : expand tokens = .error cause := by
  cases refused with
  | empty => rfl
  | mnemonic mnemonic operands notPseudo unlisted => rw [expand, notPseudo, unlisted]
  | arity mnemonic operands pseudo found miscounted =>
      rw [expand_pseudo_error_iff mnemonic operands pseudo found]
      exact .inl ⟨miscounted, rfl⟩
  | literal mnemonic rd literal load unread =>
      obtain ⟨pseudo, found⟩ : ∃ pseudo, Pseudo.find? mnemonic = some pseudo := by
        rcases load with rfl | rfl <;> exact ⟨_, rfl⟩
      rw [expand_pseudo_error_iff mnemonic _ pseudo found]
      exact .inr ⟨load, rd, literal, rfl, unread, rfl⟩

theorem expand_error_iff (tokens : List Text) (cause : InstructionError) :
    expand tokens = .error cause ↔ Unexpandable tokens cause := by
  refine ⟨fun failed => ?_, Unexpandable.expand_eq⟩
  cases tokens with
  | nil =>
      cases failed
      exact .empty
  | cons mnemonic operands =>
      cases found : Pseudo.find? mnemonic with
      | some pseudo =>
          rw [expand_pseudo_error_iff mnemonic operands pseudo found] at failed
          rcases failed with ⟨miscounted, rfl⟩ | ⟨load, rd, literal, rfl, unread, rfl⟩
          · exact .arity mnemonic operands pseudo found miscounted
          · exact .literal mnemonic rd literal load unread
      | none =>
          rw [expand, found] at failed
          cases listed : Catalogue.find? mnemonic with
          | some descriptor =>
              rw [listed] at failed
              cases failed
          | none =>
              rw [listed] at failed
              cases failed
              exact .mnemonic mnemonic operands found listed

/-- What is expanded has its declared size and is not expanded further. The expansion of a
pseudo-instruction is counted, and encodes exactly if the operands suit their places. What is
not expanded is refused for its mnemonic, the number of its operands or the literal of a load. -/
theorem expand_closed (tokens : List Text) :
    (∀ machine, expand tokens = .ok machine →
      ∃ mnemonic operands, tokens = mnemonic :: operands ∧
        machine.length = byteSize mnemonic / 4 ∧
        (∀ line ∈ machine, IsMachineForm line ∧ expand line = .ok [line]) ∧
        ∀ pseudo, Pseudo.find? mnemonic = some pseudo →
          (∀ line ∈ machine, IsCounted line) ∧
          ((∃ words, encodeAll machine = .ok words) ↔ pseudo.Suits operands machine)) ∧
    ∀ cause, expand tokens = .error cause ↔ Unexpandable tokens cause := by
  refine ⟨?_, expand_error_iff tokens⟩
  intro machine expanded
  cases tokens with
  | nil => cases expanded
  | cons mnemonic operands =>
      refine ⟨mnemonic, operands, rfl, ?_, ?_, ?_⟩
      · have size := expand_length mnemonic operands machine expanded
        omega
      · intro line listed
        have form := expand_isMachineForm mnemonic operands machine expanded line listed
        exact ⟨form, expand_machineForm line form⟩
      · intro pseudo found
        rw [expand_pseudo mnemonic operands pseudo found] at expanded
        have member := List.mem_of_find?_eq_some found
        exact ⟨fun line listed =>
          (pseudo.line_form member operands machine expanded line listed).2,
          pseudo.encodes_iff_suits member operands machine expanded⟩

/-- An address whose lower part is negative; the same loaded into what is no register. -/
theorem expand_closed_load :
    let machine (rd : String) := [["lui", rd, "1"], ["addi", rd, rd, "-2048"]].map fun line =>
      line.map String.toList
    ∃ pseudo, Pseudo.find? "la".toList = some pseudo ∧
      expand ["la".toList, "a0".toList, "0x800".toList] = .ok (machine "a0") ∧
      (∀ line ∈ machine "a0", expand line = .ok [line]) ∧
      pseudo.Suits ["a0".toList, "0x800".toList] (machine "a0") ∧
      expand ["la".toList, "8".toList, "0x800".toList] = .ok (machine "8") ∧
      ¬ pseudo.Suits ["8".toList, "0x800".toList] (machine "8") := by
  intro machine
  obtain ⟨_, _, ⟨⟩, -, closed, encodes⟩ :=
    (expand_closed ["la".toList, "a0".toList, "0x800".toList]).1 (machine "a0") rfl
  obtain ⟨_, _, ⟨⟩, -, -, unencoded⟩ :=
    (expand_closed ["la".toList, "8".toList, "0x800".toList]).1 (machine "8") rfl
  refine ⟨_, rfl, rfl, fun line listed => (closed line listed).2,
    (encodes _ rfl).2.mp ⟨_, rfl⟩, rfl, ?_⟩
  intro suits
  obtain ⟨words, encoded⟩ := (unencoded _ rfl).2.mpr suits
  cases encoded

end RiscAssembly
