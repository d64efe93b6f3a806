import Chip8.Proofs.AbstractMachine
import Chip8.Proofs.Decoding

/-!
# The machine refines the abstract machine

* `row_eq_decode`: the table of opcodes selects the instruction that the decoder finds.
* `State.view`, `Machine.view`, `Input.view`: a state, a machine and an input as the abstract
  machine has them. What lies in the stack above its depth is not seen.
* `view_execute`: an instruction and its row lead to the same state, or to the same fault.
* `view_step`, `run_refines`: so do a step and its abstract step, and whole runs.

Every operation on states has a lemma that carries it over to views; the instructions are put
together from these.
-/

namespace Chip8

/-! ## The table of opcodes -/

namespace Abstract

open Instruction

/-- The digits of a word are those of its opcode. -/
theorem row_toNat_word (op : Opcode) : row op.word.toNat = table op.family op.x op.y op.n := by
  have hfirst : digit op.word.toNat 3 = op.family :=
    Fin.ext (Nat.mod_eq_of_lt op.family.isLt)
  have hlast : digit op.word.toNat 0 = op.n := by
    rw [digit, pow_zero, Nat.div_one]
    rfl
  rw [row, hfirst, hlast]
  rfl

/-- Two digits make up the byte of an opcode. -/
theorem twoDigits_eq_kk (op : Opcode) : twoDigits op.y op.n = op.kk := by
  rw [twoDigits, ← op.toNat_kk, UInt8.ofNat_toNat]

/-- Three digits make up its address. -/
theorem threeDigits_eq_nnn (op : Opcode) : threeDigits op.x op.y op.n = op.nnn := by
  rw [threeDigits, ← op.val_nnn]
  exact Fin.ofNat_val_eq_self op.nnn

/-- Where the table has a row, the decoder finds its instruction. -/
theorem decode_of_table (op : Opcode) :
    table op.family op.x op.y op.n ≠ idle → decode op = table op.family op.x op.y op.n := by
  have hkk := op.toNat_kk
  have hclear : op.word = 0x00E0 ↔ _ = 224 := op.word_eq_iff
  have hret : op.word = 0x00EE ↔ _ = 238 := op.word_eq_iff
  unfold table
  rw [twoDigits_eq_kk, threeDigits_eq_nnn]
  split
  case h_35 => exact fun hidle => absurd rfl hidle
  all_goals
    intro _
    simp only [decode, decodeKeys, decodeSingle, Arithmetic.ofDigit?, Fin.ext_iff, *]
    try rfl

/-- Where the decoder finds an instruction, the table has a row. -/
theorem table_of_decodes {op : Opcode} {instruction : Instruction}
    (hdecodes : Decodes op instruction) (hne : instruction ≠ idle) :
    table op.family op.x op.y op.n = instruction := by
  unfold table
  rw [twoDigits_eq_kk, threeDigits_eq_nnn]
  cases hdecodes with
  | idle => exact absurd rfl hne
  | clear hword | ret hword =>
    obtain ⟨word⟩ := op
    subst hword
    rfl
  | combine hfamily hn =>
    unfold Arithmetic.ofDigit? at hn
    split at hn
    all_goals next hdigit =>
      cases hn
      try
        rw [hfamily, hdigit]
        rfl
  | skipEqual hfamily hn | skipDifferent hfamily hn =>
    rw [hfamily, hn]
    rfl
  | skipKeyDown hfamily hkk | skipKeyUp hfamily hkk | readDelay hfamily hkk | awaitKey hfamily hkk
  | setDelay hfamily hkk | setSound hfamily hkk | advance hfamily hkk | pointGlyph hfamily hkk
  | storeDecimal hfamily hkk | save hfamily hkk | restore hfamily hkk =>
    obtain ⟨hy, hn⟩ := Opcode.digits_of_kk hkk
    rw [hfamily, hy, hn]
    rfl
  | _ hfamily =>
    rw [hfamily]
    rfl

/-- **The table selects the instruction that the decoder finds.** -/
theorem row_eq_decode (op : Opcode) : row op.word.toNat = decode op := by
  rw [row_toNat_word]
  by_cases hrow : table op.family op.x op.y op.n = idle
  · by_contra hne
    exact hne (table_of_decodes (decodes op) fun hidle => hne (hrow.trans hidle.symm))
  · exact (decode_of_table op hrow).symm

end Abstract

/-! ## Views -/

/-- The lit points of a screen. -/
def Screen.lit (screen : Screen) : Finset Point :=
  Finset.univ.filter fun point => screen.isLit point = true

@[simp] theorem Screen.mem_lit {screen : Screen} {point : Point} :
    point ∈ screen.lit ↔ screen.isLit point = true := by
  simp [lit]

@[simp] theorem Screen.lit_blank : Screen.blank.lit = ∅ := by
  ext point
  simp

/-- A state as the abstract machine has it. -/
def State.view (state : State) : Abstract.State where
  v x := (state.v.get x).toFin
  i := state.i.toFin
  pc := state.pc.toFin
  callers := state.stack.toList.reverse.map UInt16.toFin
  callers_le := by
    rw [List.length_map, List.length_reverse, CallStack.length_toList]
    exact state.stack.depth_le
  delay := state.delay.toFin
  sound := state.sound.toFin
  memory address := state.memory.bytes[address].toFin
  lit := state.screen.lit
  drawn := state.redraw
  waiting := state.awaiting

/-- A machine as the abstract machine has it. -/
def Machine.view (machine : Machine) : Abstract.Machine where
  state := machine.state.view
  fatal := machine.halted

/-- An input as the abstract machine has it. -/
def Input.view (input : Input) : Abstract.Input where
  pressed key := input.keyboard.isPressed (UInt8.ofNat key.val)
  chance := input.chance.toFin

namespace State

variable (state : State)

/-! ## Registers and memory -/

/-- A byte put into a register. -/
theorem view_put (x : Register) (byte : UInt8) :
    { state with v := state.v.put x byte }.view = state.view.put x byte.toNat := by
  unfold view Abstract.State.put
  congr 1
  funext y
  rw [Function.update_apply, Registers.get_put]
  split_ifs
  · exact (Fin.ofNat_val_eq_self (n := 256) byte.toFin).symm
  · rfl

/-- A flag put into VF. -/
theorem view_putFlag (flag : Bool) :
    { state with v := state.v.put 0xF flag.toUInt8 }.view = state.view.putFlag flag := by
  rw [view_put]
  cases flag <;> rfl

/-- A program counter moved past its instruction. -/
theorem view_advanced : state.advanced.view = state.view.advanced := by
  unfold view Abstract.State.advanced
  congr 1

/-- Bytes read from memory. -/
theorem view_fetch (count : Nat) :
    state.view.fetch count = (state.memory.read state.i count).map (List.map UInt8.toFin) := by
  unfold Abstract.State.fetch
  split_ifs with hin
  · rw [Memory.read_of_le _ hin]
    change _ = Except.ok _
    rw [List.map_ofFn]
    rfl
  · rw [Memory.read_of_lt _ (Nat.lt_of_not_le hin)]
    rfl

/-- Bytes stored in memory. -/
theorem view_store (data : List UInt8) :
    (state.storeBytes data).map view = state.view.store (data.map UInt8.toFin) := by
  unfold storeBytes Abstract.State.store
  simp only [List.length_map, List.getElem_map]
  split_ifs with hin
  · rw [Memory.write_of_le _ hin]
    change Except.ok _ = Except.ok _
    unfold view
    congr 2
    funext address
    change (Block.overwrite _ _ _)[address.val].toFin = _
    rw [Block.getElem_overwrite, apply_dite UInt8.toFin]
    rfl
  · rw [Memory.write_of_lt _ (Nat.lt_of_not_le hin)]
    rfl

/-- The word at the program counter. -/
theorem view_word : state.view.word = state.memory.word state.pc := by
  unfold Abstract.State.word Memory.word
  rfl

/-- Both timers one beat later. -/
theorem view_tick : state.tick.view = state.view.tick := by
  have hbeat (timer : UInt8) :
      (countDown timer).toFin = Fin.ofNat 256 (timer.toFin.val - 1) := by
    have htimer := timer.toNat_lt
    refine Fin.ext ((toNat_countDown timer).trans ?_)
    rw [Fin.val_ofNat, Nat.mod_eq_of_lt]
    · rfl
    · change timer.toNat - 1 < 256
      omega
  unfold view tick Abstract.State.tick
  rw [hbeat, hbeat]

/-! ## Conditions and arithmetic -/

/-- A condition. -/
theorem view_holds (input : Input) (condition : Condition) :
    condition.holds state input.keyboard = state.view.holds input.view condition := by
  have hkey (key : UInt8) : key &&& 0xF = UInt8.ofNat (Fin.ofNat 16 key.toFin.val).val := by
    have hlow : (UInt8.ofNat (key.toNat % 16)).toNat = key.toNat % 16 :=
      UInt8.toNat_ofNat_of_lt (Nat.lt_trans (Nat.mod_lt _ (by decide)) (by decide))
    refine UInt8.toNat_inj.mp ((UInt8.toNat_and key 0xF).trans (Eq.trans ?_ hlow.symm))
    exact Nat.and_two_pow_sub_one_eq_mod key.toNat 4
  have hequal (a b : UInt8) : (a == b) = (a.toNat == b.toNat) :=
    decide_eq_decide.mpr UInt8.toNat_inj.symm
  cases condition with
  | isByte x kk => exact hequal (state.v.get x) kk
  | isNotByte x kk => exact congrArg not (hequal (state.v.get x) kk)
  | equal x y => exact hequal (state.v.get x) (state.v.get y)
  | different x y => exact congrArg not (hequal (state.v.get x) (state.v.get y))
  | keyDown x => exact congrArg input.keyboard.isPressed (hkey (state.v.get x))
  | keyUp x => exact congrArg (fun key => !input.keyboard.isPressed key) (hkey (state.v.get x))

end State

/-- The result of an operation on two bytes. -/
theorem Arithmetic.toNat_result (a b : UInt8) (operation : Arithmetic) :
    (operation.result a b).toNat = (Abstract.arithmetic a.toNat b.toNat operation).1 := by
  have ha := a.toNat_lt
  have hb := b.toNat_lt
  cases operation with
  | copy => rfl
  | or => exact UInt8.toNat_or a b
  | and => exact UInt8.toNat_and a b
  | xor => exact UInt8.toNat_xor a b
  | add => exact UInt8.toNat_add a b
  | sub =>
    refine (UInt8.toNat_sub a b).trans ?_
    change (256 - b.toNat + a.toNat) % 256 = (a.toNat + 256 - b.toNat) % 256
    congr 1
    omega
  | shiftRight =>
    exact (UInt8.toNat_shiftRight a 1).trans (Nat.shiftRight_eq_div_pow a.toNat 1)
  | subFrom =>
    refine (UInt8.toNat_sub b a).trans ?_
    change (256 - a.toNat + b.toNat) % 256 = (b.toNat + 256 - a.toNat) % 256
    congr 1
    omega
  | shiftLeft =>
    refine (UInt8.toNat_shiftLeft a 1).trans ?_
    change (a.toNat <<< 1) % 256 = 2 * a.toNat % 256
    rw [Nat.shiftLeft_eq, Nat.mul_comm]

/-- The flag of an operation on two bytes. -/
theorem Arithmetic.flag?_eq (a b : UInt8) (operation : Arithmetic) :
    operation.flag? a b = (Abstract.arithmetic a.toNat b.toNat operation).2 := by
  cases operation <;> rfl

namespace State

variable (state : State)

/-- Two registers combined. -/
theorem view_combine (operation : Arithmetic) (x y : Register) :
    (state.combine operation x y).view = state.view.combine operation x y := by
  have harithmetic : Abstract.arithmetic (state.view.v x).val (state.view.v y).val operation =
      ((operation.result (state.v.get x) (state.v.get y)).toNat,
        operation.flag? (state.v.get x) (state.v.get y)) :=
    Prod.ext (Arithmetic.toNat_result _ _ _).symm (Arithmetic.flag?_eq _ _ _).symm
  unfold combine Abstract.State.combine
  dsimp only
  rw [harithmetic]
  cases operation.flag? (state.v.get x) (state.v.get y) with
  | none => exact view_put state x _
  | some flag =>
    refine (view_putFlag { state with
      v := state.v.put x (operation.result (state.v.get x) (state.v.get y)) } flag).trans ?_
    rw [view_put]

end State

/-! ## Drawing -/

/-- A point toggled one by one changes exactly when it is toggled an odd number of times. -/
theorem Abstract.State.mem_foldl_toggle {lit : Finset Point} {points : List Point}
    {point : Point} :
    point ∈ points.foldl toggle lit ↔ ¬(point ∈ lit ↔ points.count point % 2 = 1) := by
  induction points generalizing lit with
  | nil => simp
  | cons first rest ih =>
    rw [List.foldl_cons, ih, List.count_cons, toggle, Finset.mem_symmDiff, Finset.mem_singleton]
    by_cases hfirst : first = point
    · subst hfirst
      rw [if_pos (beq_self_eq_true first)]
      by_cases hlit : first ∈ lit
      · simp only [hlit, not_true_eq_false, and_false, or_false, false_iff, true_iff]
        omega
      · simp only [hlit, not_false_eq_true, and_true, false_and, or_true, true_iff, false_iff]
        omega
    · rw [if_neg (by simpa using hfirst), Nat.add_zero]
      simp only [Ne.symm hfirst, not_false_iff, and_true, false_and, or_false]

/-- A sprite drawn. -/
theorem State.view_drawSprite (state : State) (x y : Register) {sprite : List UInt8}
    (hsize : sprite.length ≤ 32) :
    (state.drawSprite x y sprite).view = state.view.draw x y (sprite.map UInt8.toFin) := by
  have hsprite : (sprite.map UInt8.toFin).map UInt8.ofFin = sprite := by
    rw [List.map_map]
    exact List.map_id sprite
  have hlit : (state.screen.draw (state.v.get x).toNat (state.v.get y).toNat sprite).1.lit =
      (Screen.spritePoints (state.v.get x).toNat (state.v.get y).toNat sprite).foldl
        Abstract.State.toggle state.screen.lit := by
    ext point
    rw [Abstract.State.mem_foldl_toggle, Screen.mem_lit, Screen.mem_lit, Screen.isLit_draw]
    cases state.screen.isLit point <;> simp
  have hhit : (state.screen.draw (state.v.get x).toNat (state.v.get y).toNat sprite).2 =
      decide (state.screen.lit \
        (state.screen.draw (state.v.get x).toNat (state.v.get y).toNat sprite).1.lit).Nonempty := by
    rw [Bool.eq_iff_iff, Screen.draw_hit_iff_goes_dark hsize, decide_eq_true_eq]
    apply exists_congr
    intro point
    rw [Finset.mem_sdiff, Screen.mem_lit, Screen.mem_lit, Bool.not_eq_true]
  unfold drawSprite Abstract.State.draw
  rw [hsprite]
  refine (view_putFlag { state with screen := _, redraw := true } _).trans ?_
  change Abstract.State.putFlag { state.view with
    lit := (state.screen.draw (state.v.get x).toNat (state.v.get y).toNat sprite).1.lit
    drawn := true } (state.screen.draw (state.v.get x).toNat (state.v.get y).toNat sprite).2 = _
  rw [hhit, hlit]
  rfl

/-! ## The stack -/

/-- As many return addresses are seen as the depth says. -/
theorem State.length_callers (state : State) : state.view.callers.length = state.stack.depth := by
  change (state.stack.toList.reverse.map UInt16.toFin).length = _
  rw [List.length_map, List.length_reverse, CallStack.length_toList]

/-- The address that a pop takes off is seen first. -/
theorem State.callers_of_pop? {state : State} {pc : UInt16} {stack : CallStack}
    (hpop : state.stack.pop? = some (pc, stack)) :
    state.view.callers = pc.toFin :: stack.toList.reverse.map UInt16.toFin := by
  change state.stack.toList.reverse.map UInt16.toFin = _
  rw [CallStack.toList_pop? hpop, List.reverse_append]
  rfl

/-- No address is seen when a pop gives nothing. -/
theorem State.callers_of_pop?_eq_none {state : State} (hpop : state.stack.pop? = none) :
    state.view.callers = [] := by
  rw [← List.length_eq_zero_iff, length_callers]
  exact (CallStack.pop?_eq_none_iff state.stack).mp hpop

/-- The address that a push adds is seen first. -/
theorem State.callers_of_push {state : State} {address : UInt16} {stack : CallStack}
    (hpush : state.stack.push address = .ok stack) :
    stack.toList.reverse.map UInt16.toFin = address.toFin :: state.view.callers := by
  rw [CallStack.toList_push hpush, List.reverse_append]
  rfl

/-- A push succeeds only below capacity. -/
theorem State.length_callers_of_push {state : State} {address : UInt16} {stack : CallStack}
    (hpush : state.stack.push address = .ok stack) : state.view.callers.length < 16 := by
  have hlength := congrArg List.length (callers_of_push hpush)
  have hdepth := stack.depth_le
  rw [List.length_map, List.length_reverse, CallStack.length_toList, List.length_cons] at hlength
  omega

/-! ## Instructions -/

/-- The decimal digits of a byte. -/
theorem map_toFin_decimalDigits (byte : UInt8) :
    (decimalDigits byte).map UInt8.toFin =
      [Fin.ofNat 256 (byte.toNat / 100), Fin.ofNat 256 (byte.toNat / 10 % 10),
        Fin.ofNat 256 (byte.toNat % 10)] := by
  have hbyte := byte.toNat_lt
  have hdigit {digit : UInt8} {number : Nat} (hdigit : digit.toNat = number)
      (hnumber : number < 256) : digit.toFin = Fin.ofNat 256 number :=
    Fin.ext (hdigit.trans (Nat.mod_eq_of_lt hnumber).symm)
  have hhundreds : (byte / 100).toNat = byte.toNat / 100 := UInt8.toNat_div byte 100
  have htens : (byte / 10 % 10).toNat = byte.toNat / 10 % 10 := by
    rw [UInt8.toNat_mod, UInt8.toNat_div]
    rfl
  have hunits : (byte % 10).toNat = byte.toNat % 10 := UInt8.toNat_mod byte 10
  simp only [decimalDigits, List.map_cons, List.map_nil]
  rw [hdigit hhundreds (by omega), hdigit htens (by omega), hdigit hunits (by omega)]

/-- All registers, in their order. -/
theorem map_toFin_registers (registers : Registers) :
    registers.toList.map UInt8.toFin = List.ofFn fun x => (registers.get x).toFin := by
  apply List.ext_getElem
  · rw [List.length_map, Vector.length_toList, List.length_ofFn]
  · intro k hk hk'
    rw [List.getElem_map, List.getElem_ofFn]
    rfl

namespace Instruction

variable (state : State) (input : Input)

/-- A return. The fault of one without a call names the place two before the program counter. -/
theorem view_ret :
    (ret.execute state input).map State.view =
      state.view.effect (state.pc - 2).toFin input.view ret := by
  simp only [execute, Abstract.State.effect]
  rcases hpop : state.stack.pop? with _ | ⟨pc, stack⟩
  · have hhead : state.view.callers.head? = none := by
      rw [State.callers_of_pop?_eq_none hpop]
      rfl
    rw [hhead]
    rfl
  · have hcallers := State.callers_of_pop? hpop
    have hhead : state.view.callers.head? = some pc.toFin := by
      rw [hcallers]
      rfl
    rw [hhead]
    exact congrArg Except.ok
      (Abstract.State.ext rfl rfl rfl (congrArg List.tail hcallers).symm rfl rfl rfl rfl rfl rfl)

/-- A call. -/
theorem view_call (here : Abstract.Word) (target : Address) :
    ((call target).execute state input).map State.view =
      state.view.effect here input.view (call target) := by
  simp only [execute, Abstract.State.effect]
  rcases hpush : state.stack.push state.pc with fault | stack
  · obtain ⟨hfull, rfl⟩ := (CallStack.push_eq_error_iff _ _ _).mp hpush
    have hlength := state.length_callers
    rw [dif_neg (by omega)]
    rfl
  · rw [dif_pos (State.length_callers_of_push hpush)]
    exact congrArg Except.ok
      (Abstract.State.ext rfl rfl rfl (State.callers_of_push hpush) rfl rfl rfl rfl rfl rfl)

/-- A sprite fetched from memory and drawn. -/
theorem view_draw (here : Abstract.Word) (x y : Register) (n : Fin 16) :
    ((draw x y n).execute state input).map State.view =
      state.view.effect here input.view (draw x y n) := by
  have hsize := n.isLt
  simp only [execute, Abstract.State.effect]
  rw [State.view_fetch]
  cases hread : state.memory.read state.i n.val with
  | error fault => rfl
  | ok sprite =>
    have hlength := Memory.length_of_read_eq_ok hread
    exact congrArg Except.ok (State.view_drawSprite state x y (by omega))

/-- Registers restored from memory; those behind the last of them stay. -/
theorem view_restore (here : Abstract.Word) (x : Register) :
    ((restore x).execute state input).map State.view =
      state.view.effect here input.view (restore x) := by
  simp only [execute, Abstract.State.effect]
  rw [State.view_fetch]
  cases state.memory.read state.i (x.val + 1) with
  | error fault => rfl
  | ok data =>
    refine congrArg Except.ok ?_
    unfold State.view
    congr 1
    funext y
    change (Block.overwrite _ _ _)[y.val].toFin = _
    rw [Block.getElem_overwrite, apply_dite UInt8.toFin]
    simp only [List.length_map, List.getElem_map, Nat.zero_le, true_and, Nat.zero_add,
      Nat.sub_zero]
    rfl

end Instruction

/-- **An instruction and its row lead to the same state, or to the same fault.** -/
theorem Instruction.view_execute (state : State) (input : Input) (instruction : Instruction) :
    (instruction.execute state.advanced input).map State.view =
      state.view.advanced.effect state.view.pc input.view instruction := by
  have hback : state.pc + 2 - 2 = state.pc := UInt16.add_sub_cancel _ _
  rw [← State.view_advanced]
  cases instruction with
  | ret =>
    refine (view_ret state.advanced input).trans ?_
    rw [State.advanced_pc, hback]
    rfl
  | call target => exact view_call state.advanced input _ target
  | skip condition =>
    simp only [execute, Abstract.State.effect, ← State.view_holds]
    cases condition.holds state.advanced input.keyboard with
    | true => exact congrArg Except.ok (State.view_advanced state.advanced)
    | false => rfl
  | load x kk => exact congrArg Except.ok (State.view_put state.advanced x kk)
  | increase x kk =>
    refine congrArg Except.ok ((State.view_put state.advanced x _).trans ?_)
    rw [UInt8.toNat_add]
    rfl
  | combine operation x y =>
    exact congrArg Except.ok (State.view_combine state.advanced operation x y)
  | jumpFrom target =>
    refine congrArg Except.ok ?_
    unfold State.view
    congr 1
    refine Fin.ext ((UInt16.toNat_add _ _).trans ?_)
    rw [UInt8.toNat_toUInt16, Address.toNat_toWord, Nat.add_comm]
    rfl
  | random x mask =>
    refine congrArg Except.ok ((State.view_put state.advanced x _).trans ?_)
    rw [UInt8.toNat_and]
    rfl
  | draw x y n => exact view_draw state.advanced input _ x y n
  | readDelay x => exact congrArg Except.ok (State.view_put state.advanced x state.delay)
  | awaitKey x =>
    simp only [execute, Abstract.State.effect, State.advanced_pc, hback]
    rfl
  | advance x =>
    refine congrArg Except.ok ?_
    unfold State.view
    congr 1
    refine Fin.ext ((UInt16.toNat_add _ _).trans ?_)
    rw [UInt8.toNat_toUInt16, Fin.val_ofNat, Nat.mod_mod]
    rfl
  | storeDecimal x =>
    refine (State.view_store state.advanced _).trans ?_
    rw [map_toFin_decimalDigits]
    rfl
  | save x =>
    refine (State.view_store state.advanced _).trans ?_
    rw [List.map_take, map_toFin_registers]
    rfl
  | restore x => exact view_restore state.advanced input _ x
  | idle => rfl
  | clear =>
    refine congrArg Except.ok ?_
    unfold State.view
    rw [Screen.lit_blank]
  | jump target => rfl
  | point target => rfl
  | setDelay x => rfl
  | setSound x => rfl
  | pointGlyph x => rfl

/-! ## Steps -/

/-- The lowest key that is down. -/
theorem Input.map_lowest? (input : Input) :
    input.view.lowest?.map (fun key => UInt8.ofNat key.val) =
      Keyboard.lowest input.keyboard.isPressed := by
  have hkeys : (List.range 16).map UInt8.ofNat =
      (List.finRange 16).map fun key => UInt8.ofNat key.val := by
    decide
  rw [Keyboard.lowest, hkeys, List.find?_map]
  rfl

/-- One look at the keys. -/
theorem State.view_poll (state : State) (x : Register) {input : Input}
    (hkeys : input.keyboard.PicksLowest) :
    (state.poll x input.keyboard).view = state.view.poll x input.view := by
  unfold poll Abstract.State.poll
  rw [hkeys, ← input.map_lowest?]
  cases input.view.lowest? with
  | none => rfl
  | some key =>
    have hkey : (UInt8.ofNat key.val).toNat = key.val :=
      UInt8.toNat_ofNat_of_lt (Nat.lt_trans key.isLt (by decide))
    have hput := state.view_put x (UInt8.ofNat key.val)
    rw [hkey] at hput
    dsimp only [Option.map_some]
    rw [← hput, ← view_advanced]
    rfl

/-- The next instruction, fetched and executed. -/
theorem State.view_executeNext (state : State) (input : Input) :
    (state.executeNext input).map view = state.view.next input.view := by
  unfold executeNext Abstract.State.next
  rw [view_word]
  cases state.memory.word state.pc with
  | error fault => rfl
  | ok word =>
    refine (Instruction.view_execute state input _).trans ?_
    rw [← Abstract.row_eq_decode]

/-- **A step and its abstract step** have the same result and lead to the same machine. -/
theorem Machine.view_step (machine : Machine) {input : Input}
    (hkeys : input.keyboard.PicksLowest) :
    machine.view.step input.view = ((machine.step input).1, (machine.step input).2.view) := by
  have hfatal : machine.view.fatal = machine.halted := rfl
  have hwaiting : machine.view.state.waiting = machine.state.awaiting := rfl
  have hnext : machine.view.state.next input.view =
      (machine.state.executeNext input).map State.view :=
    (State.view_executeNext machine.state input).symm
  unfold Abstract.Machine.step
  rw [hfatal, hwaiting, hnext]
  rcases hrun : machine.halted with _ | fault
  · rcases hwait : machine.state.awaiting with _ | x
    · rcases hexecute : machine.state.executeNext input with fault | after
      · rw [step_of_error hrun hwait hexecute]
        rfl
      · rw [step_of_ok hrun hwait hexecute]
        unfold view
        rw [State.view_tick, hrun]
        rfl
    · rw [step_of_awaiting hrun hwait]
      unfold view
      rw [State.view_poll _ _ hkeys, hrun]
  · rw [step_of_halted hrun]

/-- Taking a frame and taking the lit points give the same picture and lead to the same machine. -/
theorem Machine.view_takeFrame (machine : Machine) :
    machine.view.takeFrame = (machine.takeFrame.1.map Screen.lit, machine.takeFrame.2.view) := by
  rw [takeFrame_snd]
  unfold takeFrame Abstract.Machine.takeFrame
  refine Prod.ext ?_ rfl
  change (if machine.state.redraw then some machine.state.screen.lit else none) = _
  cases machine.state.redraw <;> rfl

/-! ## Runs -/

namespace Abstract.Machine

/-- One action: the answer, and the machine after it. -/
def act (machine : Machine) : Action → Answer (Finset Point) × Machine
  | .step input => (.stepped (machine.step input.view).1, (machine.step input.view).2)
  | .takeFrame => (.frame machine.takeFrame.1, machine.takeFrame.2)

/-- The machine after a list of actions. -/
def run (machine : Machine) : List Action → Machine
  | [] => machine
  | action :: rest => (machine.act action).2.run rest

/-- What a machine answers to a list of actions. -/
def answers (machine : Machine) : List Action → List (Answer (Finset Point))
  | [] => []
  | action :: rest => (machine.act action).1 :: (machine.act action).2.answers rest

end Abstract.Machine

namespace Machine

/-- An action and its abstract action have the same answer and lead to the same machine. -/
theorem view_act (machine : Machine) {action : Action}
    (hkeys : ∀ input, action = .step input → input.keyboard.PicksLowest) :
    machine.view.act action =
      ((machine.act action).1.map Screen.lit, (machine.act action).2.view) := by
  cases action with
  | step input =>
    have hstep := machine.view_step (hkeys input rfl)
    unfold Abstract.Machine.act
    dsimp only
    rw [hstep]
    rfl
  | takeFrame =>
    unfold Abstract.Machine.act
    dsimp only
    rw [view_takeFrame]
    rfl

/-- Runs from machines that look alike answer alike and lead to machines that look alike. -/
theorem view_run (machine : Machine) {actions : List Action}
    (hkeys : ∀ input, .step input ∈ actions → input.keyboard.PicksLowest) :
    machine.view.run actions = (machine.run actions).view ∧
      machine.view.answers actions = (machine.answers actions).map (Answer.map Screen.lit) := by
  induction actions generalizing machine with
  | nil => exact ⟨rfl, rfl⟩
  | cons action rest ih =>
    have hact := machine.view_act fun input haction =>
      hkeys input (haction ▸ List.mem_cons_self)
    obtain ⟨hrun, hanswers⟩ := ih (machine.act action).2 fun input hmem =>
      hkeys input (List.mem_cons_of_mem action hmem)
    constructor
    · rw [Abstract.Machine.run, hact]
      exact hrun
    · rw [Abstract.Machine.answers, hact]
      exact congrArg (_ :: ·) hanswers

/-- The memory that an image is loaded into. -/
theorem toFin_initial_overwrite (image : List UInt8) (address : Address) :
    ((Memory.initial.bytes.overwrite 0x200 image)[address.val]).toFin =
      (Abstract.start image).state.memory address := by
  rw [Block.getElem_overwrite_eq_getD _ _ _ address.isLt, Memory.getElem_initial address.isLt,
    apply_ite UInt8.toFin]
  apply if_ctx_congr Iff.rfl
  · intro hprogram
    have hfont : Font.sheet.length = 80 := Font.length_sheet
    rw [if_pos (by omega), List.getD_eq_default Font.sheet _ (by omega)]
  · intro hbelow
    rw [apply_ite UInt8.toFin]
    rfl

/-- A loaded program begins as the abstract machine does. -/
theorem view_ofImage (image : List UInt8) : (ofImage image).view = Abstract.start image := by
  have hregisters : (ofImage image).state.view.v = (Abstract.start image).state.v := by
    funext x
    change ((Vector.replicate 16 (0 : UInt8))[x.val]).toFin = 0
    rw [Vector.getElem_replicate]
    rfl
  have hstate : (ofImage image).state.view = (Abstract.start image).state :=
    Abstract.State.ext hregisters rfl rfl rfl rfl rfl
      (funext fun address => toFin_initial_overwrite image address) Screen.lit_blank rfl rfl
  exact congrArg (Abstract.Machine.mk · none) hstate

/-- **The machine refines the abstract machine on whole runs.** For a program that is loaded, and
for every list of steps and frames taken, in which the keyboards end a wait with the lowest key
that is down, the machine after the run is seen as the abstract machine after it, and the two
answered alike at every step. -/
theorem run_refines {image : List UInt8} {start : Machine} (hload : load image = .ok start)
    {actions : List Action}
    (hkeys : ∀ input, .step input ∈ actions → input.keyboard.PicksLowest) :
    (start.run actions).view = (Abstract.start image).run actions ∧
      (start.answers actions).map (Answer.map Screen.lit) =
        (Abstract.start image).answers actions := by
  obtain ⟨-, -, rfl⟩ := load_eq_ok_iff.mp hload
  obtain ⟨hrun, hanswers⟩ := (ofImage image).view_run hkeys
  rw [view_ofImage] at hrun hanswers
  exact ⟨hrun.symm, hanswers.symm⟩

/-- A program that draws the glyph of zero and then awaits a key for V5: after the key has come, the
abstract machine has it in V5, and the corner of the screen is lit. -/
theorem run_refines_glyph_then_key :
    let image : List UInt8 := [0xA0, 0x50, 0xD0, 0x05, 0xF5, 0x0A]
    let idle : Input := { keyboard := Keypad.empty.keyboard }
    let pressing : Input := { keyboard := (Keypad.empty.press 7).keyboard }
    let actions : List Action :=
      [.step idle, .step idle, .takeFrame, .step idle, .step idle, .step pressing]
    load image = .ok (ofImage image) ∧
      (∀ input, .step input ∈ actions → input.keyboard.PicksLowest) ∧
      ((Abstract.start image).run actions).state.v 5 = 7 ∧
      (0, 0) ∈ ((Abstract.start image).run actions).state.lit := by
  intro image idle pressing actions
  have hload : load image = .ok (ofImage image) :=
    load_eq_ok_iff.mpr ⟨by decide, by decide, rfl⟩
  have hkeys : ∀ input, .step input ∈ actions → input.keyboard.PicksLowest := by
    intro input hmem
    simp only [actions, List.mem_cons, Action.step.injEq, reduceCtorEq, List.not_mem_nil,
      or_false, false_or] at hmem
    rcases hmem with rfl | rfl | rfl | rfl | rfl
    all_goals exact Keypad.picksLowest_keyboard _
  obtain ⟨hrun, -⟩ := run_refines hload hkeys
  refine ⟨hload, hkeys, ?_, ?_⟩
  · rw [← hrun]
    change (((ofImage image).run actions).state.v.get 5).toFin = 7
    decide +kernel
  · rw [← hrun]
    change (0, 0) ∈ ((ofImage image).run actions).state.screen.lit
    rw [Screen.mem_lit]
    decide +kernel

end Machine

end Chip8
