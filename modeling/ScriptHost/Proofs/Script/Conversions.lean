import ScriptHost.Proofs.Script.Dialogue
import ScriptHost.Script.Library.Standard

/-!
# Arguments of output calls as texts

`print` and `write` convert their arguments one by one before anything is
written. Each conversion runs the `tostring` of the script, which may do anything:
raise an error, give something else than a text, or write by itself.

* `words_eq`, `pieces_eq`: both put texts together that were collected before.
* `Manner`: what one conversion asks for, and what it comes to.
* `describes_printing`, `describes_writing`: the two manners are those of the code.
* `Manner.Quiet`: a conversion writes nothing itself.
-/
namespace ScriptHost.Script.Output

open HostM ScriptHost.Script.Action

/-! ## Conversions -/

/-- `f` is called with a value; its errors come back to the host, with a traceback. -/
def conversion (f v : Value) : Request := .protect f #[v] (.handler (.native (.host .withTraceback))) 0

/-- What an error of the script is to the host. -/
def caught (h : Heap) : Value → HostError
  | .str s => .runtime s
  | .userdata u =>
    match h.userdata[u]? with
    | some (.failure e) => e
    | _ => .runtime (Bytes.ofText "<unprintable error>")
  | _ => .runtime (Bytes.ofText "<unprintable error>")

/-- The first result of a call that has come back to the host. -/
def resultOf (y : Reply) (h : Heap) : Except HostError Value :=
  match y with
  | .failed e => .error (caught h e)
  | y => .ok (arg (valuesOf y) 1)

/-- What `print` takes of `tostring`: a string only. -/
def word? (y : Reply) (h : Heap) : Except HostError Bytes :=
  match resultOf y h with
  | .error e => .error e
  | .ok (.str s) => .ok s
  | .ok _ => .error (.runtime (Bytes.ofText "'tostring' must return a string to 'print'"))

/-- What a text is converted from. -/
def wanted : String := "string (expected string or number)"

/-- What `write` takes of `tostring`: a string, or a number as its text. -/
def piece? (y : Reply) (h : Heap) : Except HostError Bytes :=
  match resultOf y h with
  | .error e => .error e
  | .ok (.str s) => .ok s
  | .ok w =>
    if w.isNumber then .ok (Number.toBytes w)
    else .error (.external (Bytes.ofText s!"error converting Lua {typeName h w} to {wanted}"))

/-- Goes on with the text, or fails with the error. -/
def settle : Except HostError Bytes → Heap → Action Bytes
  | .error e, h => .fail (.host e) h
  | .ok s, h => .done s h

/-- One word of a line. -/
def word (f v : Value) : HostM Bytes := do
  match arg (← guarded f #[v]) 1 with
  | .str s => pure s
  | _ => runtimeError "'tostring' must return a string to 'print'"

/-- A number by the current `tostring`. -/
def numeral (v : Value) : HostM Bytes := do
  let toText ← currentToText
  match arg (← guarded toText #[v]) 1 with
  | .str s => pure s
  | w =>
    if w.isNumber then pure (Number.toBytes w)
    else conversionError w wanted

/-- The `n`-th of the arguments that are written. -/
def piece (n : Nat) (v : Value) : HostM Bytes := do
  match v with
  | .str s => pure s
  | .int _ | .float _ => numeral v
  | v => do
    let given ← view (typeName · v)
    runtimeError s!"bad argument #{n} to 'write' (string expected, got {given})"

/-- A guarded call goes on with its results, or fails with its error. -/
def answered (y : Reply) (h : Heap) : Action (Array Value) :=
  match y with
  | .failed e => .fail (.host (caught h e)) h
  | y => .done (valuesOf y) h

theorem guarded_apply (f v : Value) (h : Heap) :
    guarded f #[v] h = .ask (conversion f v) h answered := by
  unfold guarded
  rw [bind_apply]
  refine congrArg (Action.ask _ h) (funext fun y => funext fun h' => ?_)
  cases y with
  | ok vs => rfl
  | info i => rfl
  | failed e =>
    cases e with
    | userdata u =>
      simp only [Action.bind, answered, caught, view, bind_apply]
      cases h'.userdata[u]? with
      | none => rfl
      | some x => cases x <;> rfl
    | _ => rfl

theorem word_apply (f v : Value) (h : Heap) :
    word f v h = .ask (conversion f v) h fun y h' => settle (word? y h') h' := by
  unfold word
  rw [bind_apply, guarded_apply]
  refine congrArg (Action.ask _ h) (funext fun y => funext fun h' => ?_)
  cases y with
  | failed e => rfl
  | ok vs =>
    simp only [answered, Action.bind, word?, resultOf]
    cases arg (valuesOf (.ok vs)) 1 <;> rfl
  | info i => rfl

theorem numeral_apply (v : Value) (h : Heap) :
    numeral v h = (currentToText h).bind fun f h' =>
      .ask (conversion f v) h' fun y h'' => settle (piece? y h'') h'' := by
  unfold numeral
  rw [bind_apply]
  refine congrArg (Action.bind _) (funext fun f => funext fun h' => ?_)
  rw [bind_apply, guarded_apply]
  refine congrArg (Action.ask _ h') (funext fun y => funext fun h'' => ?_)
  cases y with
  | failed e => rfl
  | ok vs =>
    simp only [answered, Action.bind, piece?, resultOf]
    cases arg (valuesOf (.ok vs)) 1 <;> rfl
  | info i => rfl

/-- Texts of values from the `n`-th on. -/
def collect (one : Nat → Value → HostM Bytes) : Nat → List Value → HostM (List Bytes)
  | _, [] => pure []
  | n, v :: vs => do
    let b ← one n v
    let bs ← collect one (n + 1) vs
    pure (b :: bs)

/-- A line of words behind what is there. -/
def joined : List Bytes → Bool → Bytes → Bytes
  | [], _, out => out
  | b :: bs, first, out => joined bs false ((if first then out else out.push 0x09) ++ b)

theorem words_eq (f : Value) (vs : List Value) (n : Nat) (first : Bool) (out : Bytes) :
    words f vs first out =
      collect (fun _ => word f) n vs >>= fun bs => pure (joined bs first out) := by
  induction vs generalizing n first out with
  | nil => rfl
  | cons v vs ih =>
    rw [words, collect, word]
    simp only [HostM.bind_assoc]
    refine congrArg (guarded f #[v] >>= ·) (funext fun r => ?_)
    cases arg r 1 with
    | str s => exact ih (n + 1) false _
    | _ => rfl

theorem pieces_eq (vs : List Value) (n : Nat) (out : Bytes) :
    pieces vs n out = collect piece n vs >>= fun bs => pure (bs.foldl (· ++ ·) out) := by
  induction vs generalizing n out with
  | nil => rfl
  | cons v vs ih =>
    have number (v : Value) : (do
        let toText ← currentToText
        match arg (← guarded toText #[v]) 1 with
        | .str s => pieces vs (n + 1) (out ++ s)
        | w =>
          if w.isNumber then pieces vs (n + 1) (out ++ Number.toBytes w)
          else conversionError w wanted) =
        numeral v >>= fun b => collect piece (n + 1) vs >>= fun bs =>
          pure ((b :: bs).foldl (· ++ ·) out) := by
      rw [numeral]
      simp only [HostM.bind_assoc]
      refine congrArg (currentToText >>= ·) (funext fun f => ?_)
      refine congrArg (guarded f #[v] >>= ·) (funext fun r => ?_)
      cases arg r 1 with
      | str s => exact ih (n + 1) _
      | int i => exact ih (n + 1) _
      | float x => exact ih (n + 1) _
      | _ => rfl
    rw [collect]
    simp only [HostM.bind_assoc]
    cases v with
    | str s => exact ih (n + 1) _
    | int i => exact number (.int i)
    | float x => exact number (.float x)
    | _ => rfl

/-! ## How arguments become texts -/

/-- How an output call converts one argument: exchanges that bring it to an end, with a text or an
error, and exchanges behind which it still asks for something. -/
structure Manner where
  Ends : Nat → Value → Heap → List Exchange → Except Fault Bytes → Heap → Prop
  Within : Value → Heap → List Exchange → Request → Prop

/-- A request was made, and answered with a text or an error. -/
inductive Answered (r : Request) (h : Heap) (take : Reply → Heap → Except HostError Bytes) :
    List Exchange → Except Fault Bytes → Heap → Prop
  | text {y : Reply} {h' : Heap} {b : Bytes} (written : List Bytes) (good : take y h' = .ok b) :
      Answered r h take [⟨r, h, y, h', written⟩] (.ok b) h'
  | error {y : Reply} {h' : Heap} {e : HostError} (written : List Bytes) (bad : take y h' = .error e) :
      Answered r h take [⟨r, h, y, h', written⟩] (.error (.host e)) h'

/-- `print` calls a `tostring` it has found before for every argument. -/
def printing (f : Value) : Manner where
  Ends _ v h := Answered (conversion f v) h word?
  Within v _ xs r := xs = [] ∧ r = conversion f v

/-- `write` looks for the current `tostring` at every number, and has no use for values that are
neither strings nor numbers. -/
inductive Written (n : Nat) (h : Heap) : Value → List Exchange → Except Fault Bytes → Heap → Prop
  | string (s : Bytes) : Written n h (.str s) [] (.ok s) h
  | lost {v : Value} {xs : List Exchange} {e : Fault} {h' : Heap} (number : v.isNumber = true)
      (look : Goes (currentToText h) xs (.fail e h')) : Written n h v xs (.error e) h'
  | number {v f : Value} {xs ys : List Exchange} {h' h'' : Heap} {t : Except Fault Bytes}
      (number : v.isNumber = true) (look : Goes (currentToText h) xs (.done f h'))
      (call : Answered (conversion f v) h' piece? ys t h'') : Written n h v (xs ++ ys) t h''
  | other {v : Value} (string : v.isString = false) (number : v.isNumber = false) :
      Written n h v [] (.error (.host (.runtime (Bytes.ofText
        s!"bad argument #{n} to 'write' (string expected, got {typeName h v})")))) h

/-- A number is being converted. -/
inductive Writing (h : Heap) (v : Value) : List Exchange → Request → Prop
  | look {xs : List Exchange} {r : Request} {h' : Heap} {next : Reply → Heap → Action Value}
      (number : v.isNumber = true) (look : Goes (currentToText h) xs (.ask r h' next)) : Writing h v xs r
  | call {f : Value} {xs : List Exchange} {h' : Heap} (number : v.isNumber = true)
      (look : Goes (currentToText h) xs (.done f h')) : Writing h v xs (conversion f v)

def writing : Manner where
  Ends n v h := Written n h v
  Within v h := Writing h v

namespace Manner

variable {m : Manner} {one : Nat → Value → HostM Bytes}

/-- Arguments from the `n`-th on were converted, one after the other. -/
inductive Gathered (m : Manner) : Nat → List Value → Heap → List Exchange → List Bytes → Heap → Prop
  | nil (n : Nat) (h : Heap) : Gathered m n [] h [] [] h
  | cons {n : Nat} {v : Value} {vs : List Value} {h h' h'' : Heap} {ys zs : List Exchange} {b : Bytes}
      {bs : List Bytes} (first : m.Ends n v h ys (.ok b) h') (rest : Gathered m (n + 1) vs h' zs bs h'') :
      Gathered m n (v :: vs) h (ys ++ zs) (b :: bs) h''

/-- Exchanges lead the conversion of one argument to a text, to an error or to a request. -/
def Leads (m : Manner) (n : Nat) (v : Value) (h : Heap) (xs : List Exchange) : Action Bytes → Prop
  | .done b h' => m.Ends n v h xs (.ok b) h'
  | .fail e h' => m.Ends n v h xs (.error e) h'
  | .ask r _ _ => m.Within v h xs r

/-- What a function does with one argument. -/
def Describes (m : Manner) (one : Nat → Value → HostM Bytes) : Prop :=
  ∀ {n v h xs c}, Goes (one n v h) xs c → m.Leads n v h xs c

/-- The conversion of the arguments breaks off at one of them, or comes to its end. -/
theorem Describes.collect (d : m.Describes one) {n : Nat} {vs : List Value} {h : Heap} {xs : List Exchange}
    {c : Action (List Bytes)} (g : Goes (collect one n vs h) xs c) :
    (∃ bs h', c = .done bs h' ∧ m.Gathered n vs h xs bs h') ∨
      ∃ good v rest ys zs bs h', vs = good ++ v :: rest ∧ xs = ys ++ zs ∧ m.Gathered n good h ys bs h' ∧
        ((∃ e h'', m.Ends (n + good.length) v h' zs (.error e) h'' ∧ c = .fail e h'') ∨
          ∃ r h'' next, m.Within v h' zs r ∧ c = .ask r h'' next) := by
  induction vs generalizing n h xs c with
  | nil =>
    obtain ⟨rfl, rfl⟩ := Goes.done g
    exact .inl ⟨[], h, rfl, .nil n h⟩
  | cons v vs ih =>
    rw [Output.collect, bind_apply] at g
    rcases g.bind_cases with ⟨a, first, undone, rfl⟩ | ⟨ys, zs, b, h', rfl, first, g⟩
    · refine .inr ⟨[], v, vs, [], xs, [], h, rfl, rfl, .nil n h, ?_⟩
      cases a with
      | done b h' => cases undone
      | fail e h' => exact .inl ⟨e, h', d first, rfl⟩
      | ask r h' next => exact .inr ⟨r, h', _, d first, rfl⟩
    · have here := d first
      rw [bind_apply] at g
      rcases g.bind_cases with ⟨a, further, undone, rfl⟩ | ⟨us, ws, bs, h'', rfl, further, last⟩
      · rcases ih further with ⟨bs, h'', rfl, -⟩ |
          ⟨good, v', rest, us, ws, bs, h'', rfl, rfl, before, broken⟩
        · cases undone
        · refine .inr ⟨v :: good, v', rest, ys ++ us, ws, b :: bs, h'', rfl, by simp, .cons here before, ?_⟩
          have place : n + (v :: good).length = n + 1 + good.length := by
            rw [List.length_cons]
            omega
          rw [place]
          rcases broken with ⟨e, h₃, bad, rfl⟩ | ⟨r, h₃, next, within, rfl⟩
          · exact .inl ⟨e, h₃, bad, rfl⟩
          · exact .inr ⟨r, h₃, _, within, rfl⟩
      · rcases ih further with ⟨bs', h₃, hd, after⟩ | ⟨_, _, _, _, _, _, _, _, _, _, broken⟩
        · cases hd
          obtain ⟨rfl, rfl⟩ := Goes.done last
          rw [List.append_nil]
          exact .inl ⟨b :: bs, h'', rfl, .cons here after⟩
        · rcases broken with ⟨_, _, _, hd⟩ | ⟨_, _, _, _, hd⟩ <;> cases hd

end Manner

/-! ## The two manners -/

theorem leads_answered {m : Manner} {n : Nat} {v : Value} {r : Request} {h h₀ : Heap}
    {take : Reply → Heap → Except HostError Bytes} {xs ys : List Exchange} {c : Action Bytes}
    (ends : ∀ {ys t h'}, Answered r h take ys t h' → m.Ends n v h₀ (xs ++ ys) t h')
    (within : m.Within v h₀ xs r) (g : Goes (.ask r h fun y h' => settle (take y h') h') ys c) :
    m.Leads n v h₀ (xs ++ ys) c := by
  cases g with
  | stays =>
    rw [List.append_nil]
    exact within
  | asks y h' written g =>
    change Goes (settle (take y h') h') _ _ at g
    cases hy : take y h' with
    | ok b =>
      rw [hy] at g
      obtain ⟨rfl, rfl⟩ := Goes.done g
      exact ends (.text written hy)
    | error e =>
      rw [hy] at g
      obtain ⟨rfl, rfl⟩ := Goes.fail g
      exact ends (.error written hy)

theorem describes_printing (f : Value) : (printing f).Describes fun _ => word f := by
  intro n v h xs c g
  change Goes (word f v h) xs c at g
  rw [word_apply] at g
  have leads : (printing f).Leads n v h ([] ++ xs) c := leads_answered id ⟨rfl, rfl⟩ g
  exact leads

/-- A number is converted by the `tostring` of the moment. -/
theorem leads_numeral {n : Nat} {v : Value} {h : Heap} {xs : List Exchange} {c : Action Bytes}
    (number : v.isNumber = true) (g : Goes (numeral v h) xs c) : writing.Leads n v h xs c := by
  rw [numeral_apply] at g
  rcases g.bind_cases with ⟨a, look, undone, rfl⟩ | ⟨ys, zs, f, h', rfl, look, call⟩
  · cases a with
    | done => cases undone
    | fail e h' => exact .lost number look
    | ask r h' next => exact .look number look
  · exact leads_answered (.number number look) (.call number look) call

theorem describes_writing : writing.Describes piece := by
  intro n v h xs c g
  have other (string : v.isString = false) (number : v.isNumber = false)
      (g : Goes (.fail (.host (.runtime (Bytes.ofText
        s!"bad argument #{n} to 'write' (string expected, got {typeName h v})"))) h) xs c) :
      writing.Leads n v h xs c := by
    obtain ⟨rfl, rfl⟩ := Goes.fail g
    exact .other string number
  cases v with
  | str s =>
    obtain ⟨rfl, rfl⟩ := Goes.done g
    exact .string s
  | int i => exact leads_numeral rfl g
  | float x => exact leads_numeral rfl g
  | _ => exact other rfl rfl g

/-! ## Nothing is written by a conversion -/

theorem quiet_index (v key : Value) (h : Heap) : (index v key h).Quiet := by
  unfold index
  rw [view_bind]
  cases h.lookUp v key true maxChain with
  | value r => exact .done r h
  | handler f self => exact .ask nofun fun y h' => .done _ h'
  | bad v direct => exact .fail _ h
  | endless => exact .fail _ h

theorem quiet_currentToText (h : Heap) : (currentToText h).Quiet := by
  unfold currentToText
  rw [view_bind, bind_apply]
  refine (quiet_index _ _ h).bind fun f h' => ?_
  split
  · exact .done f h'
  · exact .fail _ h'

/-- Nothing is written while arguments are converted. -/
structure Manner.Quiet (m : Manner) : Prop where
  ends : ∀ {n v h xs t h'}, m.Ends n v h xs t h' → ownWrites xs = []
  within : ∀ {v h xs r}, m.Within v h xs r → ownWrites xs = [] ∧ ∀ b, r ≠ .write b

theorem Answered.ownWrites_eq {f v : Value} {h h' : Heap} {take : Reply → Heap → Except HostError Bytes}
    {xs : List Exchange} {t : Except Fault Bytes} (a : Answered (conversion f v) h take xs t h') :
    ownWrites xs = [] := by
  cases a <;> rfl

theorem quiet_printing (f : Value) : (printing f).Quiet where
  ends := Answered.ownWrites_eq
  within := by
    rintro v h xs r ⟨rfl, rfl⟩
    exact ⟨rfl, nofun⟩

theorem quiet_writing : writing.Quiet where
  ends := by
    intro n v h xs t h' ends
    cases ends with
    | string s => rfl
    | lost _ look => exact ((quiet_currentToText h).ownWrites look).1
    | number _ look call =>
      rw [ownWrites_append, ((quiet_currentToText h).ownWrites look).1, call.ownWrites_eq]
      rfl
    | other _ _ => rfl
  within := by
    intro v h xs r within
    cases within with
    | look _ look =>
      obtain ⟨none, quiet⟩ := (quiet_currentToText h).ownWrites look
      cases quiet with
      | ask other _ => exact ⟨none, other⟩
    | call _ look => exact ⟨((quiet_currentToText h).ownWrites look).1, nofun⟩

namespace Manner

variable {m : Manner}

theorem Gathered.ownWrites_eq (quiet : m.Quiet) {n : Nat} {vs : List Value} {h h' : Heap}
    {xs : List Exchange} {bs : List Bytes} (g : m.Gathered n vs h xs bs h') : ownWrites xs = [] := by
  induction g with
  | nil => rfl
  | cons first _ ih => rw [ownWrites_append, quiet.ends first, ih, List.append_nil]

end Manner

end ScriptHost.Script.Output
