import Courier.Proofs.Crew.Succession
import Courier.Proofs.Message.Breaks
import Mathlib.Data.List.Pairwise

/-!
# Chunks that are sent again

The row of a message notes which recipients were reached, and not how far the messenger came with one
of them. A sweep sends to a chat the first chunks of the text, each of them once; if it did not come to
the last one, the next sweep begins with the first chunk again. After the last chunk nothing more is
sent to the chat.
-/

namespace Courier.Outbox

open Message (ChatId Payload)
open Message.Telegram

namespace Crew

/-- What a sweep sent to a chat, if so many posts were sent in each of the calls. -/
def postedIn (made : List Call) (posted : List (List Post)) (i : Nat) (chat : ChatId) : List Post :=
  ((made.zip posted).filter fun e => e.1.sweep == i).flatMap fun e =>
    e.2.filter fun post => post.chat == chat

/-- The chunks of a message, as posts to a chat. -/
def chunksTo (title body : String) (chat : ChatId) : List Post :=
  postsTo [chat] (markedUp title.toList body.toList)

section posted
variable {title body : String} {recipients : List String} {chat : ChatId}

theorem chat_of_mem_chunksTo {post : Post} (h : post ∈ chunksTo title body chat) :
    post.chat = chat := by
  have hmem := (mem_postsTo.mp h).1
  exact List.mem_singleton.mp hmem

/-- The bot sends so many chunks, and then fails. -/
theorem transmits_chunks {x : String} (hchat : ChatId.resolve (.text x) = .ok chat) {n : Nat}
    (hn : n < (chunksTo title body chat).length) (f : Failure) :
    Transmits ⟨.text title, .text body, [x]⟩ ((chunksTo title body chat).take n) (.error f) := by
  have hstart : startOf ⟨.text title, .text body, [x]⟩ = .ok ⟨chunksTo title body chat, []⟩ := by
    rw [chunksTo]
    exact startOf_single hchat
  generalize chunksTo title body chat = chunks at hn hstart ⊢
  exact transmits_take hstart hn f

/-- Of calls that go to different chats one at most posts to a certain chat. -/
theorem flatMap_chat {es : List (Call × List Post)}
    (hes : ∀ e ∈ es, ∃ x ∈ recipients, ∃ chat', e.1.payload = ⟨.text title, .text body, [x]⟩ ∧
      ChatId.resolve (.text x) = .ok chat' ∧ ∀ post ∈ e.2, post.chat = chat')
    (hdistinct : es.Pairwise fun e e' => ∀ x y, e.1.payload.recipients = [x] →
      e'.1.payload.recipients = [y] → ChatId.resolve (.text x) ≠ ChatId.resolve (.text y)) :
    (es.flatMap fun e => e.2.filter fun post => post.chat == chat) = [] ∨
      ∃ e ∈ es, ∃ x ∈ recipients, e.1.payload = ⟨.text title, .text body, [x]⟩ ∧
        ChatId.resolve (.text x) = .ok chat ∧
        (es.flatMap fun e => e.2.filter fun post => post.chat == chat) = e.2 := by
  induction es with
  | nil => exact Or.inl rfl
  | cons e es ih =>
    obtain ⟨x, hx, chat', hpayload, hchat, hposts⟩ := hes e List.mem_cons_self
    obtain ⟨hfirst, hrest⟩ := List.pairwise_cons.mp hdistinct
    rw [List.flatMap_cons]
    by_cases hsame : chat' = chat
    · subst hsame
      right
      refine ⟨e, List.mem_cons_self, x, hx, hpayload, hchat, ?_⟩
      have hall : (e.2.filter fun post => post.chat == chat') = e.2 :=
        List.filter_eq_self.mpr fun post hpost => by simp [hposts post hpost]
      have hnone : (es.flatMap fun e => e.2.filter fun post => post.chat == chat') = [] := by
        refine List.flatMap_eq_nil_iff.mpr fun e' he' => List.filter_eq_nil_iff.mpr fun post hpost => ?_
        obtain ⟨y, -, chat'', hpayload', hchat', hposts'⟩ := hes e' (List.mem_cons_of_mem e he')
        have hne := hfirst e' he' x y (by rw [hpayload]) (by rw [hpayload'])
        rw [hchat, hchat'] at hne
        rw [hposts' post hpost, beq_iff_eq]
        exact fun he => hne (congrArg Except.ok he.symm)
      rw [hall, hnone, List.append_nil]
    · have hnone : (e.2.filter fun post => post.chat == chat) = [] :=
        List.filter_eq_nil_iff.mpr fun post hpost => by simp [hposts post hpost, hsame]
      rw [hnone, List.nil_append]
      rcases ih (fun e' he' => hes e' (List.mem_cons_of_mem e he')) hrest with hnil | ⟨e', he', h⟩
      · exact Or.inl hnil
      · exact Or.inr ⟨e', List.mem_cons_of_mem e he', h⟩

variable {made : List Call} {posted : List (List Post)}
  (hsettles : Settles (letters title body recipients) made)
  (hposted : List.Forall₂ (fun call sent => Transmits call.payload sent call.answer) made posted)
  (hresolve : ∀ x ∈ recipients, resolves x = true)
  (hdistinct : recipients.Pairwise fun x y => ChatId.resolve (.text x) ≠ ChatId.resolve (.text y))

include hsettles hdistinct in
/-- The calls of a sweep go to different chats. -/
theorem chats_pairwise (hlength : made.length = posted.length) (i : Nat) :
    ((made.zip posted).filter fun e => e.1.sweep == i).Pairwise fun e e' => ∀ x y,
      e.1.payload.recipients = [x] → e'.1.payload.recipients = [y] →
        ChatId.resolve (.text x) ≠ ChatId.resolve (.text y) := by
  have hpayloads : ((made.zip posted).filter fun e => e.1.sweep == i).map
      (fun e => e.1.payload) = payloadsIn made i := by
    have hmade : made = (made.zip posted).map Prod.fst := (List.map_fst_zip hlength.le).symm
    conv_rhs => rw [payloadsIn, hmade, List.filter_map, List.map_map]
    rfl
  have hletters : (letters title body recipients).Pairwise fun a b => ∀ x y,
      a.recipients = [x] → b.recipients = [y] →
        ChatId.resolve (.text x) ≠ ChatId.resolve (.text y) := by
    refine List.pairwise_map.mpr (hdistinct.imp fun hne x' y' hx' hy' => ?_)
    cases hx'
    cases hy'
    exact hne
  exact List.pairwise_map.mp (hpayloads ▸ hletters.sublist (hsettles.inOrder i))

include hsettles hposted hresolve hdistinct

/-- What a sweep sent to a chat was sent in one call, for the recipient that is the chat. -/
theorem postedIn_cases (i : Nat) (chat : ChatId) :
    postedIn made posted i chat = [] ∨
      ∃ call ∈ made, ∃ x ∈ recipients, call.sweep = i ∧
        call.payload = ⟨.text title, .text body, [x]⟩ ∧ ChatId.resolve (.text x) = .ok chat ∧
        Transmits call.payload (postedIn made posted i chat) call.answer := by
  obtain ⟨hlength, hzip⟩ := List.forall₂_iff_zip.mp hposted
  have hmem (e : Call × List Post)
      (he : e ∈ (made.zip posted).filter fun e => e.1.sweep == i) : e.1 ∈ made ∧ e.1.sweep = i ∧
        Transmits e.1.payload e.2 e.1.answer := by
    obtain ⟨hzipped, hsweep⟩ := List.mem_filter.mp he
    exact ⟨(List.of_mem_zip hzipped).1, beq_iff_eq.mp hsweep, hzip hzipped⟩
  have hes : ∀ e ∈ (made.zip posted).filter fun e => e.1.sweep == i, ∃ x ∈ recipients, ∃ chat',
      e.1.payload = ⟨.text title, .text body, [x]⟩ ∧ ChatId.resolve (.text x) = .ok chat' ∧
        ∀ post ∈ e.2, post.chat = chat' := by
    intro e he
    obtain ⟨hcall, -, htransmits⟩ := hmem e he
    obtain ⟨x, hx, hpayload⟩ := List.mem_map.mp (hsettles.mem hcall)
    obtain ⟨chat', hchat⟩ := resolves_iff.mp (hresolve x hx)
    refine ⟨x, hx, chat', hpayload.symm, hchat, fun post hpost => ?_⟩
    rw [← hpayload] at htransmits
    exact chat_of_mem_chunksTo ((htransmits.spec hchat).1.subset hpost)
  refine (flatMap_chat hes (chats_pairwise hsettles hdistinct hlength i)).imp_right ?_
  rintro ⟨e, he, x, hx, hpayload, hchat, hsame⟩
  obtain ⟨hcall, hsweep, htransmits⟩ := hmem e he
  refine ⟨e.1, hcall, x, hx, hsweep, hpayload, hchat, ?_⟩
  rw [postedIn, hsame]
  exact htransmits

theorem postedIn_prefix (i : Nat) (chat : ChatId) :
    postedIn made posted i chat <+: chunksTo title body chat := by
  rcases postedIn_cases hsettles hposted hresolve hdistinct i chat with hnil |
    ⟨call, -, x, -, -, hpayload, hchat, htransmits⟩
  · rw [hnil]
    exact List.nil_prefix
  · rw [hpayload] at htransmits
    exact (htransmits.spec hchat).1

/-- A call that sent all chunks succeeded, so no later sweep calls for the chat. -/
theorem postedIn_short {i j : Nat} (hij : i < j) (hlater : postedIn made posted j chat ≠ []) :
    (postedIn made posted i chat).length < (chunksTo title body chat).length := by
  have hprefix := postedIn_prefix hsettles hposted hresolve hdistinct j chat
  obtain ⟨b, hb, y, hy, rfl, hpayload', hchat', -⟩ :=
    (postedIn_cases hsettles hposted hresolve hdistinct j chat).resolve_left hlater
  rcases postedIn_cases hsettles hposted hresolve hdistinct i chat with hnil |
    ⟨a, ha, x, hx, rfl, hpayload, hchat, htransmits⟩
  · rw [hnil]
    exact Nat.lt_of_lt_of_le (List.length_pos_of_ne_nil hlater) hprefix.length_le
  · have hxy : x = y := by
      have : Std.Symm fun x y : String =>
          ChatId.resolve (.text x) ≠ ChatId.resolve (.text y) := ⟨fun _ _ hne => hne.symm⟩
      by_contra hne
      exact hdistinct.forall hx hy hne (hchat.trans hchat'.symm)
    have hfailed : a.answer.isOk = false := by
      by_contra hok
      rw [Bool.not_eq_false] at hok
      exact hsettles.not_again ha hb hij hok (by rw [hpayload, hpayload', hxy])
    rw [hpayload] at htransmits
    exact (htransmits.spec hchat).2 hfailed

end posted

/-- A sweep sends to a chat the first chunks of the message, in their order and each of them once. If it
sent all of them, no later sweep sends anything to the chat; so a chunk is sent again only if an earlier
sweep broke off at a later one. -/
theorem chunks_repeat_after_break (c : Crew) (hc : c.IsFresh) (before after : List Turn) (t₀ : Turn)
    (draft : Draft) (recipients : List String) (id : Int) (st : Store)
    (hrecipients : draft.recipients = .list (recipients.map Value.text))
    (hcreate : Store.create (c.after before).desk.now draft (c.after before).store = .ok (id, st))
    (hturn : ((c.after before).turn t₀).store = st) (c₀ : Crew) (hc₀ : c₀ = (c.after before).turn t₀)
    (hsuccession : c₀.Throughout Succeeds after) (hresolve : ∀ x ∈ recipients, resolves x = true)
    (hdistinct : recipients.Pairwise fun x y =>
      ChatId.resolve (.text x) ≠ ChatId.resolve (.text y))
    (posted : List (List Post))
    (hposted : List.Forall₂ (fun call sent => Transmits call.payload sent call.answer)
      (c₀.callsFor after id) posted) :
    ∃ r, c₀.store.find? id = some r ∧ ∀ chat,
      (∀ i, postedIn (c₀.callsFor after id) posted i chat <+: chunksTo r.title r.body chat) ∧
      ∀ i j, i < j → postedIn (c₀.callsFor after id) posted j chat ≠ [] →
        (postedIn (c₀.callsFor after id) posted i chat).length <
          (chunksTo r.title r.body chat).length := by
  subst hc₀
  obtain ⟨r, hr, hstart⟩ := follows_create (hc.aware.after before) hrecipients hcreate hturn
  obtain ⟨k, hend⟩ := hstart.after hsuccession
  have hsettles : Settles (letters r.title r.body recipients) _ := hend.settles
  rw [List.nil_append] at hsettles
  refine ⟨r, hr, fun chat => ⟨fun i => ?_, fun i j hij hlater => ?_⟩⟩
  · exact postedIn_prefix hsettles hposted hresolve hdistinct i chat
  · exact postedIn_short hsettles hposted hresolve hdistinct hij hlater

/-! ## A message of two chunks -/

/-- A body that does not fit into one chunk. -/
def oversized : String :=
  String.ofList (longBody 4000)

def oversizedDraft : Draft :=
  ⟨.null, .text "", .text oversized, .list (["42"].map Value.text), .ofInstant noon⟩

def oversizedStored : Crew :=
  (idle noon).turn (.create oversizedDraft)

/-- The first sweep fails to deliver the message, and a second one delivers it. -/
def oneFailure : List Turn :=
  [.setClock oneOClock, .join thrice (.ofInstant oneOClock), .advance 0, .answer 0 down, .advance 0,
    .advance 0, .advance 0, .join thrice (.ofInstant oneOClock), .advance 1,
    .answer 1 (answerTo ⟨.text "", .text oversized, ["42"]⟩)]

theorem succession_oneFailure : oversizedStored.Throughout Succeeds oneFailure := by
  refine ⟨trivial, ?_, trivial, trivial, trivial, trivial, trivial, ?_, trivial, trivial, trivial⟩
  · intro s hs
    cases hs
  · rw [Succeeds]
    decide +kernel

theorem oversized_chunks : 2 ≤ (chunksTo "" oversized (.number 42)).length := by
  rw [chunksTo, oversized, postsTo, String.toList_ofList, String.toList_ofList,
    List.flatMap_singleton, List.length_map, markedUp_longBody 3999]
  apply two_le_length_split (by decide)
  · rw [List.mem_append, List.mem_replicate]
    decide
  · rw [List.length_append, List.length_replicate]
    decide

theorem find_oversized : ∃ r, oversizedStored.store.find? 1 = some r ∧ r.title = "" ∧
    r.body = oversized :=
  ⟨_, rfl, rfl, rfl⟩

theorem call_oneFailure {call : Call} (h : call ∈ oversizedStored.callsFor oneFailure 1) :
    call.payload = ⟨.text "", .text oversized, ["42"]⟩ ∧
      (call.sweep = 0 ∧ call.answer = down ∨
        call.sweep = 1 ∧ call.answer = answerTo ⟨.text "", .text oversized, ["42"]⟩) := by
  have hcreate : Store.create noon oversizedDraft Store.empty = .ok (1, oversizedStored.store) := by
    rfl
  have hrecipients : oversizedDraft.recipients = .list (["42"].map Value.text) := rfl
  obtain ⟨r, hr, hstart⟩ := follows_create (isFresh_idle noon).aware hrecipients hcreate rfl
  obtain ⟨r', hr', htitle, hbody⟩ := find_oversized
  obtain rfl := Option.some.inj (hr.symm.trans hr')
  obtain ⟨k, hend⟩ := hstart.after succession_oneFailure
  constructor
  · have hmem := hend.settles.mem h
    rw [htitle, hbody] at hmem
    exact List.mem_singleton.mp hmem
  · obtain ⟨us, t, vs, hturns, hcall⟩ := mem_along (List.mem_filter.mp h).1
    obtain ⟨rfl, -⟩ := call?_eq_some hcall
    have ht : .answer call.sweep call.answer ∈ oneFailure := by
      rw [hturns]
      exact List.mem_append_right us List.mem_cons_self
    simpa [oneFailure] using ht

theorem postedIn_two {a b : Call} {sent sent' : List Post} {chat : ChatId} (hne : a.sweep ≠ b.sweep)
    (hsent : ∀ post ∈ sent, post.chat = chat) (hsent' : ∀ post ∈ sent', post.chat = chat) :
    postedIn [a, b] [sent, sent'] a.sweep chat = sent ∧
      postedIn [a, b] [sent, sent'] b.sweep chat = sent' := by
  have hall : (sent.filter fun post => post.chat == chat) = sent :=
    List.filter_eq_self.mpr fun post hpost => beq_iff_eq.mpr (hsent post hpost)
  have hall' : (sent'.filter fun post => post.chat == chat) = sent' :=
    List.filter_eq_self.mpr fun post hpost => beq_iff_eq.mpr (hsent' post hpost)
  simp [postedIn, hne, hne.symm, hall, hall']

/-- The bot fails at the second chunk in the first sweep, and not in the second sweep. -/
theorem posted_oneFailure : ∃ posted : List (List Post),
    List.Forall₂ (fun call sent => Transmits call.payload sent call.answer)
      (oversizedStored.callsFor oneFailure 1) posted ∧
    postedIn (oversizedStored.callsFor oneFailure 1) posted 0 (.number 42) =
      (chunksTo "" oversized (.number 42)).take 1 ∧
    postedIn (oversizedStored.callsFor oneFailure 1) posted 1 (.number 42) =
      chunksTo "" oversized (.number 42) := by
  have hsweeps : (oversizedStored.callsFor oneFailure 1).map (·.sweep) = [0, 1] := by
    decide +kernel
  obtain ⟨a, b, hcalls⟩ : ∃ a b, oversizedStored.callsFor oneFailure 1 = [a, b] := by
    apply List.length_eq_two.mp
    rw [← List.length_map, hsweeps]
    rfl
  have hcall := @call_oneFailure
  rw [hcalls] at hcall hsweeps ⊢
  obtain ⟨ha, hb⟩ : a.sweep = 0 ∧ b.sweep = 1 := by simpa using hsweeps
  obtain ⟨hpayload, hanswer⟩ := hcall (List.mem_cons_self (a := a))
  obtain ⟨hpayload', hanswer'⟩ := hcall (List.mem_cons_of_mem a (List.mem_singleton_self b))
  have hdown : a.answer = down := by simpa [ha] using hanswer
  have hdone : b.answer = answerTo b.payload := by simpa [hb, hpayload'] using hanswer'
  have hchat : ChatId.resolve (.text "42") = .ok (.number 42) := by rfl
  have hfirst : Transmits a.payload ((chunksTo "" oversized (.number 42)).take 1) a.answer := by
    rw [hpayload, hdown]
    exact transmits_chunks hchat oversized_chunks _
  have hall : Transmits b.payload (chunksTo "" oversized (.number 42)) b.answer := by
    have hconveys := conveys_answerTo b.payload
    rw [← hdone, hpayload', postsOf_single "" oversized hchat, ← hpayload'] at hconveys
    exact .conveyed hconveys
  have hmem' : ∀ post ∈ chunksTo "" oversized (.number 42), post.chat = .number 42 :=
    fun post hpost => chat_of_mem_chunksTo hpost
  have hmem : ∀ post ∈ (chunksTo "" oversized (.number 42)).take 1, post.chat = .number 42 :=
    fun post hpost => hmem' post (List.mem_of_mem_take hpost)
  have hne : a.sweep ≠ b.sweep := by
    rw [ha, hb]
    decide
  have hposted := postedIn_two hne hmem hmem'
  rw [ha, hb] at hposted
  exact ⟨_, .cons hfirst (.cons hall .nil), hposted⟩

theorem chunks_repeat_after_break_oversized : ∃ posted : List (List Post),
    List.Forall₂ (fun call sent => Transmits call.payload sent call.answer)
      (oversizedStored.callsFor oneFailure 1) posted ∧
    postedIn (oversizedStored.callsFor oneFailure 1) posted 1 (.number 42) ≠ [] ∧
    (postedIn (oversizedStored.callsFor oneFailure 1) posted 0 (.number 42)).length <
      (chunksTo "" oversized (.number 42)).length := by
  obtain ⟨posted, hposted, -, hagain⟩ := posted_oneFailure
  obtain ⟨r, hr, hchat⟩ := chunks_repeat_after_break (idle noon) (isFresh_idle noon) [] oneFailure
    (.create oversizedDraft) oversizedDraft ["42"] 1 oversizedStored.store rfl (by rfl) rfl
    oversizedStored rfl succession_oneFailure (by decide +kernel) (List.pairwise_singleton _ _) posted
    hposted
  obtain ⟨r', hr', htitle, hbody⟩ := find_oversized
  obtain rfl := Option.some.inj (hr.symm.trans hr')
  have hlater : postedIn (oversizedStored.callsFor oneFailure 1) posted 1 (.number 42) ≠ [] := by
    rw [hagain]
    exact List.ne_nil_of_length_pos (Nat.lt_of_lt_of_le Nat.two_pos oversized_chunks)
  have hshort := (hchat (.number 42)).2 0 1 Nat.one_pos hlater
  rw [htitle, hbody] at hshort
  exact ⟨posted, hposted, hlater, hshort⟩

/-- The first chunk is sent in the first sweep and in the second. -/
theorem first_chunk_is_sent_twice :
    Store.create noon oversizedDraft (idle noon).store = .ok (1, oversizedStored.store) ∧
    oversizedStored.Throughout Succeeds oneFailure ∧ resolves "42" = true ∧
    ∃ posted post, List.Forall₂ (fun call sent => Transmits call.payload sent call.answer)
        (oversizedStored.callsFor oneFailure 1) posted ∧
      (chunksTo "" oversized (.number 42))[0]? = some post ∧
      (postedIn (oversizedStored.callsFor oneFailure 1) posted 0 (.number 42))[0]? = some post ∧
      (postedIn (oversizedStored.callsFor oneFailure 1) posted 1 (.number 42))[0]? = some post := by
  refine ⟨by rfl, succession_oneFailure, by decide +kernel, ?_⟩
  obtain ⟨posted, hposted, hfirst, hagain⟩ := posted_oneFailure
  have hpos : 0 < (chunksTo "" oversized (.number 42)).length :=
    Nat.lt_of_lt_of_le Nat.two_pos oversized_chunks
  refine ⟨posted, _, hposted, List.getElem?_eq_getElem hpos, ?_, ?_⟩
  · rw [hfirst, List.getElem?_take_of_lt Nat.one_pos, List.getElem?_eq_getElem hpos]
  · rw [hagain, List.getElem?_eq_getElem hpos]

end Crew

end Courier.Outbox
