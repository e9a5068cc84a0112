import KeyBroker.Proofs.Access.Audit

/-! # Lines of the audit

  How many lines a record of the audit fills. A record is written as one text, and the name
  of the set that a request asks for stands in it as the request gave it, once by itself and
  in some refusals once more in the reason. Nothing else in the text breaks a line: not the
  caller, not a number, not any other word of a reason, and not a name that is quoted. So
  the line breaks of a record are those of the set's name, once or twice, and a record fills
  one line just when that name has none.
-/

namespace KeyBroker

/-! ### Line breaks -/

namespace Text

/-- The characters at which a line ends for one reader or another: line feed, vertical tab,
    form feed, carriage return, next line, line separator and paragraph separator. -/
def isBreak (c : Char) : Bool :=
  c = '\n' || c = '\x0b' || c = '\x0c' || c = '\r' || c = '\u0085' || c = '\u2028' || c = '\u2029'

/-- How many line breaks stand in a text. -/
def breaks (s : String) : Nat := s.toList.countP isBreak

@[simp] theorem breaks_append (s t : String) : breaks (s ++ t) = breaks s + breaks t := by
  simp only [breaks, String.toList_append, List.countP_append]

theorem breaks_append_eq_zero_iff {s t : String} :
    breaks (s ++ t) = 0 ↔ breaks s = 0 ∧ breaks t = 0 := by
  rw [breaks_append, Nat.add_eq_zero_iff]

/-- A text that is spelled out breaks at none of its letters. -/
theorem breaks_ofList {l : List Char} (h : l.countP isBreak = 0) : breaks (String.ofList l) = 0 := by
  rw [breaks, String.toList_ofList, h]

theorem breaks_eq_zero_iff {s : String} :
    breaks s = 0 ↔ ∀ c ∈ s.toList, isBreak c = false := by
  simp [breaks, List.countP_eq_zero]

theorem isBreak_of_isDigit {c : Char} (h : c.isDigit = true) : isBreak c = false := by
  cases hbreak : isBreak c with
  | false => rfl
  | true =>
    simp only [isBreak, Bool.or_eq_true, decide_eq_true_eq] at hbreak
    rcases hbreak with (((((rfl | rfl) | rfl) | rfl) | rfl) | rfl) | rfl <;> cases h

@[simp] theorem breaks_repr (n : Nat) : breaks n.repr = 0 := by
  rw [breaks_eq_zero_iff]
  intro c hc
  have hdigits : c ∈ Nat.toDigits 10 n := by
    rwa [show n.repr = String.ofList (Nat.toDigits 10 n) from rfl, String.toList_ofList] at hc
  exact isBreak_of_isDigit (isDigit_toDigits n c hdigits)

@[simp] theorem breaks_intRepr (n : Int) : breaks n.repr = 0 := by
  cases n with
  | ofNat n => exact breaks_repr n
  | negSucc n =>
    show breaks ("-" ++ (n + 1).repr) = 0
    simp +decide

@[simp] theorem breaks_toString (s : String) : breaks (toString s) = breaks s := rfl

@[simp] theorem breaks_toString_nat (n : Nat) : breaks (toString n) = 0 := breaks_repr n

theorem isPrintable_of_isBreak {c : Char} (h : isBreak c = true) : isPrintable c = false := by
  simp only [isBreak, Bool.or_eq_true, decide_eq_true_eq] at h
  rcases h with (((((rfl | rfl) | rfl) | rfl) | rfl) | rfl) | rfl <;> cbv

theorem isBreak_of_mem_hexDigits (n : Nat) : ∀ c ∈ hexDigits n, isBreak c = false := by
  have hdigit : ∀ d < 16, isBreak d.digitChar = false := by decide
  induction n using Nat.strongRecOn with
  | ind n ih =>
    intro c hc
    by_cases hn : n < 16
    · rw [hexDigits, Nat.toDigits_of_lt_base hn, List.mem_singleton] at hc
      exact hc ▸ hdigit n hn
    · rw [hexDigits, Nat.toDigits_of_base_le (by decide) (Nat.le_of_not_lt hn), List.mem_append,
        List.mem_singleton] at hc
      obtain hc | rfl := hc
      · exact ih (n / 16) (by omega) c hc
      · exact hdigit (n % 16) (Nat.mod_lt n (by decide))

theorem countP_quoteChar (c : Char) : (quoteChar c).countP isBreak = 0 := by
  fun_cases quoteChar c with
  | case7 _ _ _ _ _ _ hprintable =>
    -- shown as itself, and no line break is
    cases hbreak : isBreak c with
    | false => rw [List.countP_singleton, hbreak, if_neg (by decide)]
    | true => simp [isPrintable_of_isBreak hbreak] at hprintable
  | case8 =>
    -- written by its number in digits
    have hdigits : (hexDigits c.toNat).countP isBreak = 0 :=
      List.countP_eq_zero.mpr fun d hd => by simp [isBreak_of_mem_hexDigits _ d hd]
    rw [List.countP_append, List.countP_append, hdigits]
    decide
  | _ => decide

/-- A name that is quoted breaks no line: every character that would is written as an
    escape. -/
@[simp] theorem breaks_quote (name : String) : breaks (quote name) = 0 := by
  have hinside : (name.toList.flatMap quoteChar).countP isBreak = 0 := by
    rw [List.countP_eq_zero]
    intro d hd
    obtain ⟨c, -, hd⟩ := List.mem_flatMap.mp hd
    exact List.countP_eq_zero.mp (countP_quoteChar c) d hd
  rw [breaks, quote, String.toList_ofList, List.cons_append, List.countP_cons, List.countP_append,
    hinside]
  decide

end Text

/-! ### Words -/

open Text

@[simp] theorem Caller.breaks_describe (c : Caller) : breaks c.describe = 0 := by
  unfold Caller.describe
  split <;> simp +decide

@[simp] theorem breaks_describeCaller (c : Option Caller) : breaks (describeCaller c) = 0 := by
  cases c with
  | none => decide
  | some c => exact c.breaks_describe

@[simp] theorem Selector.breaks_describe (s : Selector) : breaks s.describe = 0 := by
  cases s with
  | latest => decide
  | exactly n => simp +decide [describe]

@[simp] theorem Command.breaks_name (c : Command) : breaks c.name = 0 := by
  cases c with
  | operate op => cases op <;> decide
  | ping => decide
  | retrieve => decide

@[simp] theorem Capability.breaks_word (c : Capability) : breaks c.word = 0 := by
  cases c <;> decide

@[simp] theorem Action.breaks_name (a : Action) : breaks a.name = 0 := by
  cases a <;> decide

@[simp] theorem KeyKind.breaks_name (k : KeyKind) : breaks k.name = 0 := by
  cases k <;> decide

@[simp] theorem Hash.breaks_word (h : Hash) : breaks h.word = 0 := by
  cases h <;> decide

@[simp] theorem Algorithm.breaks_name (a : Algorithm) : breaks a.name = 0 := by
  cases a with
  | standard => decide
  | hash h => cases h <;> decide

@[simp] theorem Operation.breaks_word (op : Operation) : breaks op.word = 0 := by
  cases op <;> decide

@[simp] theorem Primitive.breaks_describe (p : Primitive) : breaks p.describe = 0 := by
  unfold describe
  split
  · exact breaks_ofList (by decide)
  all_goals
    simp only [breaks_append_eq_zero_iff, breaks_toString, Hash.breaks_word, and_true]
    and_intros <;> exact breaks_ofList (by decide)

/-! ### Reasons -/

theorem AlgorithmFault.breaks_message (cause : AlgorithmFault) : breaks cause.message = 0 := by
  unfold message
  split
  · simp only [breaks_append_eq_zero_iff, breaks_toString, breaks_toString_nat, and_true]
    and_intros <;> exact breaks_ofList (by decide)
  · simp only [breaks_append_eq_zero_iff, breaks_toString, breaks_toString_nat, and_true]
    and_intros <;> exact breaks_ofList (by decide)
  all_goals exact breaks_ofList (by decide)

theorem PairFault.breaks_message (cause : PairFault) : breaks cause.message = 0 := by
  cases cause <;> exact breaks_ofList (by decide)

theorem Unsupported.breaks_message (cause : Unsupported) : breaks cause.message = 0 := by
  unfold message
  split
  · simp only [breaks_append_eq_zero_iff, breaks_toString, breaks_toString_nat, and_true]
    exact breaks_ofList (by decide)
  · -- the only reason that repeats a name as it came, and the name is quoted
    simp only [breaks_append_eq_zero_iff, breaks_quote, and_true]
    exact breaks_ofList (by decide)
  · simp only [breaks_append_eq_zero_iff, breaks_toString, Algorithm.breaks_name, true_and]
    exact breaks_ofList (by decide)
  · simp only [breaks_append_eq_zero_iff, breaks_toString, Operation.breaks_word,
      Primitive.breaks_describe, true_and, and_true]
    exact breaks_ofList (by decide)

/-- No reason that has to do with a key breaks a line. -/
theorem KeyFault.breaks_message (cause : KeyFault) : breaks cause.message = 0 := by
  unfold message
  split
  · simp only [breaks_append_eq_zero_iff, breaks_toString, KeyKind.breaks_name, and_true]
    and_intros <;> exact breaks_ofList (by decide)
  · next cause =>
    simp only [breaks_append_eq_zero_iff, breaks_toString, cause.breaks_message, and_true]
    exact breaks_ofList (by decide)
  · next cause =>
    simp only [breaks_append_eq_zero_iff, breaks_toString, cause.breaks_message, and_true]
    exact breaks_ofList (by decide)
  · next cause =>
    simp only [breaks_append_eq_zero_iff, breaks_toString, cause.breaks_message, and_true]
    exact breaks_ofList (by decide)

/-- Whether the reason by which a request is told of an obstacle names the set. -/
def Obstacle.named : Obstacle → Bool
  | notPermitted | missing => true
  | unauthenticated | unnamed | unsupported | unsigned | misfit => false

namespace Broker

variable {b : Broker} {draw : Draw} {c : Connection} {caller : Caller} {r : Request}
  {o : Obstacle} {v : KeyVersion} {capability : Capability}

/-- A reason breaks a line where it names the set, as the name does. -/
theorem Reports.breaks_message {fault : Fault} (h : b.Reports c r o fault) :
    breaks fault.message = if o.named then breaks r.set else 0 := by
  cases h with
  | unauthenticated =>
    show breaks (Fault.message _) = 0
    unfold Fault.message Denial.message
    simp only [breaks_append_eq_zero_iff, breaks_toString]
    and_intros <;> exact breaks_ofList (by decide)
  | unnamed =>
    show breaks (Fault.message _) = 0
    unfold Fault.message Malformation.message
    simp only [breaks_append_eq_zero_iff, breaks_toString, Command.breaks_name, true_and]
    and_intros <;> exact breaks_ofList (by decide)
  | notPermitted caller hcaller =>
    have hwords : breaks "Permission denied: " = 0 ∧ breaks " may not " = 0
        ∧ breaks " key set " = 0 := by
      and_intros <;> exact breaks_ofList (by decide)
    show breaks (Fault.message _) = breaks r.set
    unfold Fault.message Denial.message
    simp only [breaks_append, breaks_toString, Caller.breaks_describe, Action.breaks_name, hwords,
      Nat.zero_add]
  | noSet hset =>
    have hwords : breaks "Not found: " = 0 ∧ breaks "unknown key set " = 0 := by
      and_intros <;> exact breaks_ofList (by decide)
    show breaks (Fault.message _) = breaks r.set
    unfold Fault.message Missing.message
    simp only [breaks_append, breaks_toString, hwords, Nat.zero_add]
  | noVersion s hset =>
    have hwords : breaks "Not found: " = 0 ∧ breaks "key set " = 0
        ∧ breaks " has no version " = 0 := by
      and_intros <;> exact breaks_ofList (by decide)
    show breaks (Fault.message _) = breaks r.set
    unfold Fault.message Missing.message
    simp only [breaks_append, breaks_toString, Selector.breaks_describe, hwords, Nat.zero_add,
      Nat.add_zero]
  | unknown n hasked hnone => exact KeyFault.breaks_message _
  | disabled a hasked hrefused => exact KeyFault.breaks_message _
  | unsigned =>
    show breaks (Fault.message _) = 0
    unfold Fault.message Malformation.message
    simp only [breaks_append_eq_zero_iff, breaks_toString]
    and_intros <;> exact breaks_ofList (by decide)
  | misfit v required hkey hother => exact KeyFault.breaks_message _

/-- With a key at hand no reason breaks a line. -/
theorem Used.breaks_message {command : Command} {fault : Fault}
    (h : Used v command (.error fault)) : breaks fault.message = 0 := by
  cases h with
  | unwritten k cause hpair hwritten => exact KeyFault.breaks_message _
  | failed op hop cause => exact KeyFault.breaks_message _

/-! ### Records -/

/-- The line of a grant breaks where its set's name does. -/
theorem breaks_grantLine (version : UInt32) :
    breaks (grantLine c caller r version capability).text = breaks r.set := by
  have hwords : breaks "conn#" = 0 ∧ breaks " " = 0 ∧ breaks " v" = 0 ∧ breaks " granted " = 0
      ∧ breaks "(" = 0 ∧ breaks ")" = 0 := by
      and_intros <;> exact breaks_ofList (by decide)
  unfold grantLine
  simp only [breaks_append, breaks_toString, breaks_toString_nat, Caller.breaks_describe,
    Command.breaks_name, Capability.breaks_word, hwords, Nat.zero_add, Nat.add_zero]

/-- The line of a warning breaks where its set's name does, and again where its reason
    does. -/
theorem breaks_warningLine (text : String) :
    breaks (warningLine c r text).text = breaks r.set + breaks text := by
  have hwords : breaks "conn#" = 0 ∧ breaks " " = 0 ∧ breaks ": " = 0 := by
      and_intros <;> exact breaks_ofList (by decide)
  unfold warningLine
  simp only [breaks_append, breaks_toString, breaks_toString_nat, breaks_describeCaller,
    Command.breaks_name, Selector.breaks_describe, hwords, Nat.zero_add, Nat.add_zero]

/-- The line of a warning ends with its reason. -/
theorem warningLine_append (text more : String) :
    (warningLine c r (text ++ more)).text = (warningLine c r text).text ++ more :=
  (String.append_assoc ..).symm

/-- How often a line of the audit has the name of the set that a request asks for: once by
    itself, and once more in a warning whose reason names it. -/
def mentions (b : Broker) (c : Connection) (r : Request) (line : Record) : Nat :=
  if line.level = .warn ∧ (b.obstacle? c r).any Obstacle.named then 2 else 1

theorem mentions_pos (line : Record) : 0 < b.mentions c r line := by
  unfold mentions
  split <;> decide

/-- What a request leaves while it is served is the line of its grant. -/
theorem breaks_of_served {line : Record} (h : line ∈ auditLines (b.serve draw c r).2.2) :
    breaks line.text = b.mentions c r line * breaks r.set := by
  have hcourse := b.course_serve draw c r
  by_cases hfinds : ∃ caller capability v, b.Finds c r caller capability v
  · obtain ⟨caller, capability, v, hfinds⟩ := hfinds
    rw [hcourse.auditLines_of_finds hfinds, List.mem_singleton] at h
    subst h
    rw [breaks_grantLine, mentions, if_neg (fun h => nomatch h.1), Nat.one_mul]
  · simp only [not_exists] at hfinds
    rw [hcourse.auditLines_of_not_finds hfinds] at h
    cases h

/-- What the caller gets told breaks a line where it names the set. -/
theorem breaks_of_told {text : String} (hstatus : (b.handle draw c r).response.status = .error)
    (hmessage : (b.handle draw c r).response.message = some text) :
    breaks text = if (b.obstacle? c r).any Obstacle.named then breaks r.set else 0 := by
  rw [handle_response] at hstatus hmessage
  by_cases hping : r.command = .ping
  · rw [serve_ping hping] at hstatus
    cases hstatus
  cases hfirst : b.obstacle? c r with
  | some o =>
    obtain ⟨fault, hserve, hreports⟩ := serve_of_obstacle? draw hping hfirst
    rw [hserve] at hmessage
    obtain rfl : fault.message = text := Option.some.inj hmessage
    exact hreports.breaks_message
  | none =>
    obtain ⟨v, -, hused⟩ := serve_of_no_obstacle draw hping hfirst
    generalize (b.serve draw c r).1 = result at hstatus hmessage hused
    cases result with
    | ok body => cases hstatus
    | error fault =>
      obtain rfl : fault.message = text := Option.some.inj hmessage
      exact hused.breaks_message

/-- A record of the audit breaks its line where the name of its set does, and nowhere else.
    Whatever request is handled on whatever connection, each line that it leaves in the audit
    has the line breaks of the set's name once, or twice in a warning that it is not permitted
    or that the key is not there; so a record fills a single line just when that name does. -/
theorem line_breaks_where_name_does (b : Broker) (draw : Draw) (c : Connection) (r : Request) :
    ∀ line ∈ auditLines (b.handle draw c r).events,
      breaks line.text = b.mentions c r line * breaks r.set
      ∧ (breaks line.text = 0 ↔ breaks r.set = 0) := by
  suffices hbreaks : ∀ line ∈ auditLines (b.handle draw c r).events,
      breaks line.text = b.mentions c r line * breaks r.set by
    intro line hline
    have hpos : 0 < b.mentions c r line := mentions_pos line
    refine ⟨hbreaks line hline, ?_⟩
    rw [hbreaks line hline, Nat.mul_eq_zero]
    exact ⟨fun h => h.resolve_left (Nat.ne_of_gt hpos), Or.inr⟩
  intro line hline
  obtain ⟨warnings, hlines, hwarned⟩ := auditLines_handle b draw c r
  rw [hlines, List.mem_append] at hline
  -- the line of a grant is left while the request is served, and a warning by the response
  obtain hserved | hwarning := hline
  · exact breaks_of_served hserved
  · obtain ⟨-, rfl⟩ | ⟨text, hstatus, hmessage, rfl⟩ := hwarned
    · cases hwarning
    · rw [List.mem_singleton] at hwarning
      subst hwarning
      rw [breaks_warningLine, breaks_of_told hstatus hmessage]
      unfold mentions
      by_cases hnamed : (b.obstacle? c r).any Obstacle.named = true
      · rw [if_pos hnamed, if_pos ⟨rfl, hnamed⟩, Nat.two_mul]
      · rw [if_neg hnamed, if_neg (fun h => hnamed h.2), Nat.one_mul, Nat.add_zero]

/-- A refusal of a set whose name is two lines long fills three lines. -/
theorem line_breaks_where_name_does_of_two :
    let b : Broker := ⟨KeyStore.empty, fun _ _ => none, {}⟩
    let draw : Draw := ⟨Vector.replicate 12 0, Vector.replicate 64 0, 1⟩
    let c : Connection := { id := 2, caller := some ⟨1000, 100, none⟩ }
    let r : Request := { command := .retrieve, set := "s\nt" }
    let line := warningLine c r
      "Permission denied: uid=1000 gid=100 may not retrieve key set s\nt"
    line ∈ auditLines (b.handle draw c r).events ∧ breaks line.text = 2 := by
  intro b draw c r line
  have hmessage : (Fault.denied (.notPermitted ⟨1000, 100, none⟩ .retrieve r.set)).message
      = "Permission denied: uid=1000 gid=100 may not retrieve key set s\nt" := by
    decide +kernel
  have hlines : auditLines (b.handle draw c r).events = [line] :=
    (auditLines_refused _).trans (congrArg (fun text => [warningLine c r text]) hmessage)
  have hline : line ∈ auditLines (b.handle draw c r).events :=
    hlines ▸ List.mem_singleton_self line
  have hmentions : b.mentions c r line = 2 := rfl
  have hset : breaks r.set = 1 := by decide
  refine ⟨hline, ?_⟩
  rw [(line_breaks_where_name_does b draw c r line hline).1, hmentions, hset]

/-- Not every record is one line: a name with a line feed in it, asked for by somebody who may
    not have it, leaves a record whose last line is, letter for letter, the record of a grant
    to somebody else on another connection. -/
theorem name_forges_grant :
    let b : Broker := ⟨KeyStore.empty, fun _ _ => none, {}⟩
    let draw : Draw := ⟨Vector.replicate 12 0, Vector.replicate 64 0, 1⟩
    let c : Connection := { id := 2, caller := some ⟨1000, 100, none⟩ }
    let forged := grantLine { id := 1, caller := none } ⟨0, 0, none⟩
      { command := .retrieve, set := "root" } 7 .retrieve
    let r : Request := { command := .retrieve, set := "s\n" ++ forged.text }
    ∃ line ∈ auditLines (b.handle draw c r).events,
      breaks line.text ≠ 0 ∧ ∃ before, line.text = before ++ "\n" ++ forged.text := by
  intro b draw c forged r
  let refusal := "Permission denied: " ++ (Caller.describe ⟨1000, 100, none⟩ ++ " may not "
    ++ Action.name .retrieve ++ " key set ")
  have hmessage : (Fault.denied (.notPermitted ⟨1000, 100, none⟩ .retrieve r.set)).message
      = refusal ++ r.set := (String.append_assoc ..).symm
  have hlines : auditLines (b.handle draw c r).events = [warningLine c r (refusal ++ r.set)] :=
    (auditLines_refused _).trans (congrArg (fun text => [warningLine c r text]) hmessage)
  -- the reason ends with the name of the set, and so the line ends with the forged one
  have hset : r.set = "s" ++ "\n" ++ forged.text := rfl
  refine ⟨_, hlines ▸ List.mem_singleton_self _, ?_, (warningLine c r refusal).text ++ "s", ?_⟩
  · have hbreak : breaks "\n" = 1 := by decide
    rw [breaks_warningLine, hset, breaks_append, breaks_append, hbreak]
    omega
  · simp only [warningLine_append, hset, String.append_assoc]

end Broker

end KeyBroker
