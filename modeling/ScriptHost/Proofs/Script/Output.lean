import ScriptHost.Proofs.Script.Conversions

/-!
# Output calls write once or not at all

An output call goes through one course: it converts its arguments in their order,
and when all are converted it asks for a single write. So the first argument that
cannot be converted stops it before any byte of its own was written.

* `Manner.Course`: how far a call has come.
* `Manner.Course.oneWrite`: it has one write of its own, after all others, or none.
* `output_all_or_nothing`: `print`, `io.write` and the method of the stand-in.
-/
namespace ScriptHost.Script.Output

open HostM ScriptHost.Script.Action

namespace Manner

variable {m : Manner} {one : Nat → Value → HostM Bytes}

/-! ## The whole call -/

/-- What an output call has come to: it converts arguments, of which all before were converted; it
was stopped by the first that could not be; it asks for one write of all texts; or it has ended with
the reply to that. -/
inductive Course (m : Manner) (line : List Bytes → Bytes) (result : Array Value) (vs : List Value)
    (h : Heap) : List Exchange → Action (Array Value) → Prop
  | converting {good : List Value} {v : Value} {rest : List Value} {ys zs : List Exchange}
      {bs : List Bytes} {h' h'' : Heap} {r : Request} {next : Reply → Heap → Action (Array Value)}
      (split : vs = good ++ v :: rest) (before : m.Gathered 1 good h ys bs h')
      (within : m.Within v h' zs r) : Course m line result vs h (ys ++ zs) (.ask r h'' next)
  | offended {good : List Value} {v : Value} {rest : List Value} {ys zs : List Exchange}
      {bs : List Bytes} {h' h'' : Heap} {e : Fault}
      (split : vs = good ++ v :: rest) (before : m.Gathered 1 good h ys bs h')
      (bad : m.Ends (1 + good.length) v h' zs (.error e) h'') :
      Course m line result vs h (ys ++ zs) (.fail e h'')
  | writing {ys : List Exchange} {bs : List Bytes} {h' : Heap}
      {next : Reply → Heap → Action (Array Value)} (all : m.Gathered 1 vs h ys bs h') :
      Course m line result vs h ys (.ask (.write (line bs)) h' next)
  | refused {ys : List Exchange} {bs : List Bytes} {h' h'' : Heap} {s : Bytes} (written : List Bytes)
      (all : m.Gathered 1 vs h ys bs h') :
      Course m line result vs h (ys ++ [⟨.write (line bs), h', .failed (.str s), h'', written⟩])
        (.fail (.host (.external s)) h'')
  | written {ys : List Exchange} {bs : List Bytes} {h' h'' : Heap} {y : Reply} (written : List Bytes)
      (all : m.Gathered 1 vs h ys bs h') (taken : ∀ s, y ≠ .failed (.str s)) :
      Course m line result vs h (ys ++ [⟨.write (line bs), h', y, h'', written⟩]) (.done result h'')

/-- What becomes of a write. -/
def emitted (y : Reply) (h : Heap) : Action Unit :=
  match y with
  | .failed (.str s) => .fail (.host (.external s)) h
  | _ => .done () h

theorem emitted_cases (y : Reply) (h : Heap) :
    (∃ s, y = .failed (.str s) ∧ emitted y h = .fail (.host (.external s)) h) ∨
      (∀ s, y ≠ .failed (.str s)) ∧ emitted y h = .done () h := by
  unfold emitted
  split
  · exact .inl ⟨_, rfl, rfl⟩
  · rename_i other
    exact .inr ⟨other, rfl⟩

theorem emit_apply (b : Bytes) (h : Heap) : emit b h = .ask (.write b) h emitted := by
  unfold emit
  rw [bind_apply]
  refine congrArg (Action.ask _ h) (funext fun y => funext fun h' => ?_)
  cases y with
  | failed e => cases e <;> rfl
  | _ => rfl

theorem Describes.course (d : m.Describes one) {line : List Bytes → Bytes} {result : Array Value}
    {vs : List Value} {h : Heap} {xs : List Exchange} {c : Action (Array Value)}
    (g : Goes ((Output.collect one 1 vs >>= fun bs => emit (line bs) >>= fun _ => pure result) h) xs c) :
    Course m line result vs h xs c := by
  rw [bind_apply] at g
  rcases g.bind_cases with ⟨a, first, undone, rfl⟩ | ⟨ys, zs, bs, h', rfl, first, last⟩
  · rcases d.collect first with
      ⟨bs, h', rfl, -⟩ | ⟨good, v, rest, ys, zs, bs, h', split, rfl, before, broken⟩
    · cases undone
    · rcases broken with ⟨e, h'', bad, rfl⟩ | ⟨r, h'', next, within, rfl⟩
      · exact .offended split before bad
      · exact .converting split before within
  · rcases d.collect first with ⟨bs', h'', hd, all⟩ | ⟨_, _, _, _, _, _, _, _, _, _, broken⟩
    · cases hd
      rw [bind_apply, emit_apply] at last
      cases last with
      | stays =>
        rw [List.append_nil]
        exact .writing all
      | asks y h'' written last =>
        change Goes ((emitted y h'').bind fun _ => (pure result : HostM (Array Value))) _ _ at last
        rcases emitted_cases y h'' with ⟨s, rfl, settled⟩ | ⟨taken, settled⟩
        · rw [settled] at last
          obtain ⟨rfl, rfl⟩ := Goes.fail last
          exact .refused written all
        · rw [settled] at last
          obtain ⟨rfl, rfl⟩ := Goes.done last
          exact .written written all taken
    · rcases broken with ⟨_, _, _, hd⟩ | ⟨_, _, _, _, hd⟩ <;> cases hd

end Manner

/-! ## Writes of a call's own -/

/-- The channel tells the truth: a write that did not fail has reached it, and nothing else with it. -/
def Truthful (x : Exchange) : Prop :=
  ∀ b, x.request = .write b → (∀ s, x.reply ≠ .failed (.str s)) → x.written = [b]

/-- A call that has gone well has made one write of its own, after all others. Before its end, or if
it has failed, it has made none, unless that one write is what failed. -/
def OneWrite (xs : List Exchange) : Action (Array Value) → Prop
  | .done .. => ∃ b others, ownWrites xs = [b] ∧ allWrites xs = others ++ [b]
  | .fail .. => ownWrites xs = [] ∨ ∃ ys x b s, xs = ys ++ [x] ∧ ownWrites ys = [] ∧
      x.request = .write b ∧ x.reply = .failed (.str s)
  | .ask .. => ownWrites xs = []

namespace Manner

variable {m : Manner}

theorem Course.oneWrite (quiet : m.Quiet) {line : List Bytes → Bytes} {result : Array Value}
    {vs : List Value} {h : Heap} {xs : List Exchange} {c : Action (Array Value)}
    (course : Course m line result vs h xs c) (truthful : ∀ x ∈ xs, Truthful x) : OneWrite xs c := by
  cases course with
  | converting _ before within =>
    rw [OneWrite, ownWrites_append, before.ownWrites_eq quiet, (quiet.within within).1]
    rfl
  | offended _ before bad =>
    left
    rw [ownWrites_append, before.ownWrites_eq quiet, quiet.ends bad]
    rfl
  | writing all => exact all.ownWrites_eq quiet
  | refused written all => exact .inr ⟨_, _, _, _, rfl, all.ownWrites_eq quiet, rfl, rfl⟩
  | @written ys bs h' h'' y written all taken =>
    refine ⟨line bs, allWrites ys, ?_, ?_⟩
    · rw [ownWrites_append, all.ownWrites_eq quiet]
      rfl
    · have last := truthful _ (List.mem_append_right ys List.mem_cons_self) _ rfl taken
      simp only [allWrites, List.flatMap_append, List.flatMap_cons, List.flatMap_nil, List.append_nil]
      exact congrArg _ last

end Manner

/-! ## The three calls -/

theorem push_eq (b : Bytes) (x : UInt8) : b.push x = b ++ Bytes.ofList [x] := by
  apply ByteArray.ext
  rw [ByteArray.data_append, ByteArray.data_push]
  rfl

/-- Texts with tabs between them, and a newline behind. -/
def line (bs : List Bytes) : Bytes :=
  Bytes.cat (bs.intersperse (Bytes.ofList [0x09]) ++ [Bytes.ofList [0x0A]])

theorem joined_push (bs : List Bytes) : (joined bs true .empty).push 0x0A = line bs := by
  have further (b : Bytes) (bs : List Bytes) (out : Bytes) :
      joined bs false (out ++ b) = ((b :: bs).intersperse (Bytes.ofList [0x09])).foldl (· ++ ·) out := by
    induction bs generalizing b out with
    | nil => rfl
    | cons c bs ih =>
      rw [joined, push_eq, List.intersperse_cons_cons, List.foldl_cons, List.foldl_cons]
      exact ih c _
  cases bs with
  | nil => rfl
  | cons b bs =>
    rw [joined, if_pos rfl, further, push_eq, line, Bytes.cat, List.foldl_append]
    rfl

/-- What `print` has come to: it looks for `tostring`, or has not found it, or goes on with it. -/
inductive Prints (vs : List Value) (h : Heap) : List Exchange → Action (Array Value) → Prop
  | looking {xs : List Exchange} {r : Request} {h' : Heap} {look : Reply → Heap → Action Value}
      {next : Reply → Heap → Action (Array Value)} (look : Goes (currentToText h) xs (.ask r h' look)) :
      Prints vs h xs (.ask r h' next)
  | lost {xs : List Exchange} {e : Fault} {h' : Heap} (look : Goes (currentToText h) xs (.fail e h')) :
      Prints vs h xs (.fail e h')
  | found {xs ys : List Exchange} {f : Value} {h' : Heap} {c : Action (Array Value)}
      (look : Goes (currentToText h) xs (.done f h'))
      (course : (printing f).Course line #[] vs h' ys c) : Prints vs h (xs ++ ys) c

/-- A value is the stand-in for standard output. -/
def IsOutput (h : Heap) (v : Value) : Prop := ∃ u, v = .userdata u ∧ h.userdata[u]? = some .output

theorem print_eq (args : Args) :
    print args = currentToText >>= fun f => collect (fun _ => word f) 1 args.toList >>= fun bs =>
      emit (line bs) >>= fun _ => pure #[] := by
  unfold print
  refine congrArg (currentToText >>= ·) (funext fun f => ?_)
  rw [words_eq f _ 1, HostM.bind_assoc]
  refine congrArg (collect _ 1 args.toList >>= ·) (funext fun bs => ?_)
  rw [HostM.pure_bind, joined_push]

theorem write_apply {output : Value} {h : Heap} (is : IsOutput h output) (vs : List Value) :
    write output vs h =
      (collect piece 1 vs >>= fun bs => emit (Bytes.cat bs) >>= fun _ => pure #[output]) h := by
  obtain ⟨u, rfl, here⟩ := is
  unfold write
  rw [view_bind, pieces_eq, HostM.bind_assoc]
  simp only [here, Bool.not_true, Bool.false_eq_true, if_false]
  rfl

theorem print_goes {args : Args} {h : Heap} {xs : List Exchange} {c : Action (Array Value)}
    (g : Goes (print args h) xs c) : Prints args.toList h xs c := by
  rw [print_eq, bind_apply] at g
  rcases g.bind_cases with ⟨a, look, undone, rfl⟩ | ⟨ys, zs, f, h', rfl, look, rest⟩
  · cases a with
    | done => cases undone
    | fail e h' => exact .lost look
    | ask r h' next => exact .looking look
  · exact .found look (Manner.Describes.course (describes_printing f) rest)

theorem Prints.oneWrite {vs : List Value} {h : Heap} {xs : List Exchange} {c : Action (Array Value)}
    (p : Prints vs h xs c) (truthful : ∀ x ∈ xs, Truthful x) : OneWrite xs c := by
  have quiet := quiet_currentToText h
  cases p with
  | looking look => exact (quiet.ownWrites look).1
  | lost look => exact .inl (quiet.ownWrites look).1
  | @found ys zs f h' c look course =>
    have none := (quiet.ownWrites look).1
    have rest := course.oneWrite (quiet_printing f) fun x hx => truthful x (List.mem_append_right ys hx)
    cases c with
    | done vs h'' =>
      obtain ⟨b, others, own, all⟩ := rest
      refine ⟨b, allWrites ys ++ others, ?_, ?_⟩
      · rw [ownWrites_append, none, own, List.nil_append]
      · rw [allWrites_append, all, List.append_assoc]
    | fail e h'' =>
      rcases rest with own | ⟨us, x, b, s, rfl, own, asked, failed⟩
      · left
        rw [ownWrites_append, none, own, List.nil_append]
      · refine .inr ⟨ys ++ us, x, b, s, (List.append_assoc ..).symm, ?_, asked, failed⟩
        rw [ownWrites_append, none, own, List.nil_append]
    | ask r h'' next =>
      rw [OneWrite] at rest ⊢
      rw [ownWrites_append, none, rest, List.nil_append]

theorem write_goes {output : Value} {h : Heap} (is : IsOutput h output) {vs : List Value}
    {xs : List Exchange} {c : Action (Array Value)} (g : Goes (write output vs h) xs c) :
    writing.Course Bytes.cat #[output] vs h xs c := by
  rw [write_apply is] at g
  exact Manner.Describes.course describes_writing g

/-- The receiver of a method is the stand-in. -/
theorem stdoutWrite_apply {h : Heap} {id : Nat} {state args : Array Value} (is : IsOutput h (arg args 1)) :
    Native.run (.host .stdoutWrite) id state args h = write (arg args 1) (args.toList.drop 1) h := by
  obtain ⟨u, ha, here⟩ := is
  have given : typeName h (arg args 1) = "userdata" := by
    rw [ha, typeName, here]
  have received : receiver args "write" h = .done (arg args 1) h := by
    unfold receiver
    rw [view_bind, if_pos given]
    rfl
  change (receiver args "write" >>= fun out => write out (args.toList.drop 1)) h = _
  rw [bind_apply, received]
  rfl

/-- **Output calls write all or nothing**, whatever `tostring` is and does. -/
theorem output_all_or_nothing (id : Nat) (state args : Array Value) (h : Heap) (xs : List Exchange)
    (c : Action (Array Value)) (truthful : ∀ x ∈ xs, Truthful x) :
    (Goes (Native.run (.basic .print) id state args h) xs c →
        Prints args.toList h xs c ∧ OneWrite xs c) ∧
      (IsOutput h (arg state 1) → Goes (Native.run (.host .write) id state args h) xs c →
        writing.Course Bytes.cat #[arg state 1] args.toList h xs c ∧ OneWrite xs c) ∧
      (IsOutput h (arg args 1) → Goes (Native.run (.host .stdoutWrite) id state args h) xs c →
        writing.Course Bytes.cat #[arg args 1] (args.toList.drop 1) h xs c ∧ OneWrite xs c) := by
  refine ⟨fun g => ?_, fun is g => ?_, fun is g => ?_⟩
  · have prints := print_goes g
    exact ⟨prints, prints.oneWrite truthful⟩
  · have course := write_goes is g
    exact ⟨course, course.oneWrite quiet_writing truthful⟩
  · rw [stdoutWrite_apply is] at g
    have course := write_goes is g
    exact ⟨course, course.oneWrite quiet_writing truthful⟩

/-- A heap with the stand-in, whose only global is `tostring`. -/
def outputHeap : Heap :=
  { tables := #[{ nodes := #[⟨.text "tostring", .native (.basic .tostring), 0⟩] }]
    userdata := #[.output] }

theorem currentToText_outputHeap :
    currentToText outputHeap = .done (.native (.basic .tostring)) outputHeap := by
  have same : (Bytes.ofText "tostring" == Bytes.ofText "tostring") = true := by decide
  -- the only place there is for a key
  have position : (Bytes.ofText "tostring").hash.toNat % 1 = 0 := Nat.mod_one _
  have found : outputHeap.lookUp (.table 0) (.text "tostring") true maxChain =
      .value (.native (.basic .tostring)) := by
    simp [Heap.lookUp, maxChain, outputHeap, Heap.table, Table.get, Table.normalKey, Value.text,
      Table.find?, Table.mainPosition, position, Table.findFrom, Value.rawEq, same]
  unfold currentToText
  rw [view_bind, bind_apply]
  change Action.bind (index (.table 0) (.text "tostring") outputHeap) _ = _
  rw [index_value found]
  rfl

/-- The words of `print("a", 7)`; one of the calls of `tostring` writes something, too. -/
def printExchanges : List Exchange :=
  [⟨conversion (.native (.basic .tostring)) (.text "a"), outputHeap, .ok #[.text "a"], outputHeap, []⟩,
    ⟨conversion (.native (.basic .tostring)) (.int 7), outputHeap, .ok #[.text "7"], outputHeap,
      [Bytes.ofText "x"]⟩]

/-- The call of `print` goes through these exchanges to its end. -/
theorem goes_printExchanges (said : List Bytes) :
    Goes (print #[.text "a", .int 7] outputHeap)
      (printExchanges ++
        [⟨.write (line [Bytes.ofText "a", Bytes.ofText "7"]), outputHeap, .ok #[], outputHeap, said⟩])
      (.done #[] outputHeap) := by
  rw [print_eq, bind_apply, currentToText_outputHeap]
  change Goes ((collect (fun _ => word (.native (.basic .tostring))) 1 [.text "a", .int 7] >>= fun bs =>
    emit (line bs) >>= fun _ => pure #[]) outputHeap) _ _
  rw [bind_apply]
  have collected : Goes (collect (fun _ => word (.native (.basic .tostring))) 1 [.text "a", .int 7] outputHeap)
      printExchanges (.done [Bytes.ofText "a", Bytes.ofText "7"] outputHeap) :=
    .asks _ _ _ (.asks _ _ _ (.stays _))
  exact collected.bind (.asks _ _ _ (.stays _))

theorem isOutput_outputHeap : IsOutput outputHeap (.userdata 0) := ⟨0, rfl, rfl⟩

/-- A method of the stand-in goes through its one write to its end. -/
theorem goes_method (said : List Bytes) :
    Goes (Native.run (.host .stdoutWrite) 0 #[] #[.userdata 0, .text "a"] outputHeap)
      [⟨.write (Bytes.cat [Bytes.ofText "a"]), outputHeap, .ok #[], outputHeap, said⟩]
      (.done #[.userdata 0] outputHeap) := by
  rw [stdoutWrite_apply isOutput_outputHeap]
  change Goes (write (.userdata 0) [.text "a"] outputHeap) _ _
  rw [write_apply isOutput_outputHeap]
  exact .asks _ _ _ (.stays _)

/-- The error of a truth value as the second argument of `io.write`. -/
def badArgument : Fault :=
  .host (.runtime (Bytes.ofText "bad argument #2 to 'write' (string expected, got boolean)"))

theorem goes_badArgument :
    Goes (Native.run (.host .write) 0 #[.userdata 0] #[.text "a", .bool true] outputHeap) []
      (.fail badArgument outputHeap) := by
  change Goes (write (.userdata 0) [.text "a", .bool true] outputHeap) _ _
  rw [write_apply isOutput_outputHeap]
  exact .stays _

/-- `print` writes its line behind what a `tostring` has written, a method of the stand-in writes its
argument, and with a bad second argument nothing is written of the first. -/
theorem output_all_or_nothing_boolean :
    let said := line [Bytes.ofText "a", Bytes.ofText "7"]
    let once := Bytes.cat [Bytes.ofText "a"]
    let xs := printExchanges ++ [⟨.write said, outputHeap, .ok #[], outputHeap, [said]⟩]
    let ys : List Exchange := [⟨.write once, outputHeap, .ok #[], outputHeap, [once]⟩]
    (∀ x ∈ xs ++ ys, Truthful x) ∧ said = Bytes.ofText "a\t7\n" ∧ OneWrite xs (.done #[] outputHeap) ∧
      IsOutput outputHeap (.userdata 0) ∧ OneWrite ys (.done #[.userdata 0] outputHeap) ∧
      OneWrite [] (.fail badArgument outputHeap) := by
  intro said once xs ys
  have truthful : ∀ x ∈ xs ++ ys, Truthful x := by
    intro x hx b asked _
    simp only [xs, ys, printExchanges, conversion, List.cons_append, List.nil_append, List.mem_cons,
      List.not_mem_nil, or_false] at hx
    rcases hx with rfl | rfl | rfl | rfl <;> cases asked <;> rfl
  have print := output_all_or_nothing 0 #[] #[.text "a", .int 7] outputHeap xs (.done #[] outputHeap)
    fun x hx => truthful x (List.mem_append_left _ hx)
  have method := output_all_or_nothing 0 #[] #[.userdata 0, .text "a"] outputHeap ys
    (.done #[.userdata 0] outputHeap) fun x hx => truthful x (List.mem_append_right _ hx)
  have refused := output_all_or_nothing 0 #[.userdata 0] #[.text "a", .bool true] outputHeap []
    (.fail badArgument outputHeap) fun _ hx => absurd hx List.not_mem_nil
  exact ⟨truthful, rfl, (print.1 (goes_printExchanges [said])).2, isOutput_outputHeap,
    (method.2.2 isOutput_outputHeap (goes_method [once])).2,
    (refused.2.1 isOutput_outputHeap goes_badArgument).2⟩

end ScriptHost.Script.Output
