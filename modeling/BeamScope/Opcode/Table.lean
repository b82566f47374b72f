import BeamScope.Opcode.Basic

/-!
# The instruction set

Every instruction that this library knows, in the order of their numbers.
-/

namespace BeamScope.Opcode

def docLines (lines : List String) : Option String := some ("\n".intercalate lines)

def formatNumber : Nat := 0

/-- The known instructions, ascending by number. -/
def table : List Opcode := [
    ⟨1, "label", 1, .control, [], none,
      docLines [
        "Specify a module local label.",
        "Label gives this code address a name (Lbl) and marks the start of",
        "a basic block."], ["Lbl"]⟩,
    ⟨2, "func_info", 3, .metadata, [], none,
      docLines ["Define a function M:F/A"], ["M", "F", "A"]⟩,
    ⟨3, "int_code_end", 0, .metadata, [], none, none, []⟩,
    ⟨4, "call", 2, .call, [.localCall], none,
      docLines [
        "Call the function at Label.",
        "Save the next instruction as the return address in the CP register."], ["Arity", "Label"]⟩,
    ⟨5, "call_last", 3, .call, [.localCall, .tailCall], none,
      docLines [
        "Deallocate and do a tail recursive call to the function at Label.",
        "Do not update the CP register.",
        "Before the call deallocate Deallocate words of stack."], ["Arity", "Label", "Deallocate"]⟩,
    ⟨6, "call_only", 2, .call, [.localCall, .tailCall], none,
      docLines [
        "Do a tail recursive call to the function at Label.",
        "Do not update the CP register."], ["Arity", "Label"]⟩,
    ⟨7, "call_ext", 2, .call, [.externalCall], some 1,
      docLines [
        "Call the function of arity Arity pointed to by Destination.",
        "Save the next instruction as the return address in the CP register."],
      ["Arity", "Destination"]⟩,
    ⟨8, "call_ext_last", 3, .call, [.externalCall, .tailCall], some 1,
      docLines [
        "Deallocate and do a tail call to function of arity Arity",
        "pointed to by Destination.",
        "Do not update the CP register.",
        "Deallocate Deallocate words from the stack before the call."],
      ["Arity", "Destination", "Deallocate"]⟩,
    ⟨9, "bif0", 2, .call, [.bifCall], some 0,
      docLines ["Call the bif Bif and store the result in Reg."], ["Bif", "Reg"]⟩,
    ⟨10, "bif1", 4, .call, [.bifCall], some 1,
      docLines [
        "Call the bif Bif with the argument Arg, and store the result in Reg.",
        "On failure jump to Lbl."], ["Lbl", "Bif", "Arg", "Reg"]⟩,
    ⟨11, "bif2", 5, .call, [.bifCall], some 1,
      docLines [
        "Call the bif Bif with the arguments Arg1 and Arg2,",
        "and store the result in Reg.",
        "On failure jump to Lbl."], ["Lbl", "Bif", "Arg1", "Arg2", "Reg"]⟩,
    ⟨12, "allocate", 2, .stack, [], none,
      docLines [
        "Allocate space for StackNeed words on the stack. If a GC is needed",
        "during allocation there are Live number of live X registers.",
        "Also save the continuation pointer (CP) on the stack."], ["StackNeed", "Live"]⟩,
    ⟨13, "allocate_heap", 3, .stack, [], none,
      docLines [
        "Allocate space for StackNeed words on the stack and ensure there is",
        "space for HeapNeed words on the heap. If a GC is needed",
        "save Live number of X registers.",
        "Also save the continuation pointer (CP) on the stack."],
      ["StackNeed", "HeapNeed", "Live"]⟩,
    ⟨14, "allocate_zero", 2, .stack, [.deprecated], none, none, []⟩,
    ⟨15, "allocate_heap_zero", 3, .stack, [.deprecated], none, none, []⟩,
    ⟨16, "test_heap", 2, .stack, [], none,
      docLines [
        "Ensure there is space for HeapNeed words on the heap. If a GC is needed",
        "save Live number of X registers."], ["HeapNeed", "Live"]⟩,
    ⟨17, "init", 1, .stack, [.deprecated], none,
      docLines ["Clear the Nth stack word. (By writing NIL.)"], ["N"]⟩,
    ⟨18, "deallocate", 1, .stack, [], none,
      docLines [
        "Restore the continuation pointer (CP) from the stack and deallocate",
        "N+1 words from the stack (the + 1 is for the CP)."], ["N"]⟩,
    ⟨19, "return", 0, .ret, [], none,
      docLines ["Return to the address in the continuation pointer (CP)."], []⟩,
    ⟨20, "send", 0, .message, [], none,
      docLines [
        "Send argument in x(1) as a message to the destination process in x(0).",
        "The message in x(1) ends up as the result of the send in x(0)."], []⟩,
    ⟨21, "remove_message", 0, .message, [], none,
      docLines ["Unlink the current message from the message queue. Remove any timeout."], []⟩,
    ⟨22, "timeout", 0, .message, [], none,
      docLines ["Reset the save point of the mailbox and clear the timeout flag."], []⟩,
    ⟨23, "loop_rec", 2, .message, [], none,
      docLines ["Loop over the message queue, if it is empty jump to Label."], ["Label", "Source"]⟩,
    ⟨24, "loop_rec_end", 1, .message, [], none,
      docLines ["Advance the save pointer to the next message and jump back to Label."], ["Label"]⟩,
    ⟨25, "wait", 1, .message, [], none,
      docLines [
        "Suspend the processes and set the entry point to the beginning of the",
        "receive loop at Label."], ["Label"]⟩,
    ⟨26, "wait_timeout", 2, .message, [], none,
      docLines [
        "Sets up a timeout of Time milliseconds and saves the address of the",
        "following instruction as the entry point if the timeout triggers."], ["Lable", "Time"]⟩,
    ⟨27, "m_plus", 4, .unknown, [.deprecated], none, none, []⟩,
    ⟨28, "m_minus", 4, .unknown, [.deprecated], none, none, []⟩,
    ⟨29, "m_times", 4, .unknown, [.deprecated], none, none, []⟩,
    ⟨30, "m_div", 4, .unknown, [.deprecated], none, none, []⟩,
    ⟨31, "int_div", 4, .unknown, [.deprecated], none, none, []⟩,
    ⟨32, "int_rem", 4, .unknown, [.deprecated], none, none, []⟩,
    ⟨33, "int_band", 4, .unknown, [.deprecated], none, none, []⟩,
    ⟨34, "int_bor", 4, .unknown, [.deprecated], none, none, []⟩,
    ⟨35, "int_bxor", 4, .unknown, [.deprecated], none, none, []⟩,
    ⟨36, "int_bsl", 4, .unknown, [.deprecated], none, none, []⟩,
    ⟨37, "int_bsr", 4, .unknown, [.deprecated], none, none, []⟩,
    ⟨38, "int_bnot", 3, .unknown, [.deprecated], none, none, []⟩,
    ⟨39, "is_lt", 3, .control, [], none,
      docLines ["Compare two terms and jump to Lbl if Arg1 is not less than Arg2."],
      ["Lbl", "Arg1", "Arg2"]⟩,
    ⟨40, "is_ge", 3, .control, [], none,
      docLines ["Compare two terms and jump to Lbl if Arg1 is less than Arg2."],
      ["Lbl", "Arg1", "Arg2"]⟩,
    ⟨41, "is_eq", 3, .control, [], none,
      docLines ["Compare two terms and jump to Lbl if Arg1 is not (numerically) equal to Arg2."],
      ["Lbl", "Arg1", "Arg2"]⟩,
    ⟨42, "is_ne", 3, .control, [], none,
      docLines ["Compare two terms and jump to Lbl if Arg1 is (numerically) equal to Arg2."],
      ["Lbl", "Arg1", "Arg2"]⟩,
    ⟨43, "is_eq_exact", 3, .control, [], none,
      docLines ["Compare two terms and jump to Lbl if Arg1 is not exactly equal to Arg2."],
      ["Lbl", "Arg1", "Arg2"]⟩,
    ⟨44, "is_ne_exact", 3, .control, [], none,
      docLines ["Compare two terms and jump to Lbl if Arg1 is exactly equal to Arg2."],
      ["Lbl", "Arg1", "Arg2"]⟩,
    ⟨45, "is_integer", 2, .control, [], none,
      docLines ["Test the type of Arg1 and jump to Lbl if it is not an integer."], ["Lbl", "Arg1"]⟩,
    ⟨46, "is_float", 2, .control, [], none,
      docLines ["Test the type of Arg1 and jump to Lbl if it is not a float."], ["Lbl", "Arg1"]⟩,
    ⟨47, "is_number", 2, .control, [], none,
      docLines ["Test the type of Arg1 and jump to Lbl if it is not a number."], ["Lbl", "Arg1"]⟩,
    ⟨48, "is_atom", 2, .control, [], none,
      docLines ["Test the type of Arg1 and jump to Lbl if it is not an atom."], ["Lbl", "Arg1"]⟩,
    ⟨49, "is_pid", 2, .control, [], none,
      docLines ["Test the type of Arg1 and jump to Lbl if it is not a pid."], ["Lbl", "Arg1"]⟩,
    ⟨50, "is_reference", 2, .control, [], none,
      docLines ["Test the type of Arg1 and jump to Lbl if it is not a reference."],
      ["Lbl", "Arg1"]⟩,
    ⟨51, "is_port", 2, .control, [], none,
      docLines ["Test the type of Arg1 and jump to Lbl if it is not a port."], ["Lbl", "Arg1"]⟩,
    ⟨52, "is_nil", 2, .control, [], none,
      docLines ["Test the type of Arg1 and jump to Lbl if it is not nil."], ["Lbl", "Arg1"]⟩,
    ⟨53, "is_binary", 2, .control, [], none,
      docLines ["Test the type of Arg1 and jump to Lbl if it is not a binary."], ["Lbl", "Arg1"]⟩,
    ⟨54, "is_constant", 2, .control, [.deprecated], none, none, []⟩,
    ⟨55, "is_list", 2, .control, [], none,
      docLines ["Test the type of Arg1 and jump to Lbl if it is not a cons or nil."],
      ["Lbl", "Arg1"]⟩,
    ⟨56, "is_nonempty_list", 2, .control, [], none,
      docLines ["Test the type of Arg1 and jump to Lbl if it is not a cons."], ["Lbl", "Arg1"]⟩,
    ⟨57, "is_tuple", 2, .control, [], none,
      docLines ["Test the type of Arg1 and jump to Lbl if it is not a tuple."], ["Lbl", "Arg1"]⟩,
    ⟨58, "test_arity", 3, .control, [], none,
      docLines [
        "Test the arity of (the tuple in) Arg1 and jump",
        "to Lbl if it is not equal to Arity."], ["Lbl", "Arg1", "Arity"]⟩,
    ⟨59, "select_val", 3, .control, [], none,
      docLines [
        "Jump to the destination label corresponding to Arg",
        "in the Destinations list, if no arity matches, jump to FailLabel."],
      ["Arg", "FailLabel", "Destinations"]⟩,
    ⟨60, "select_tuple_arity", 3, .control, [], none,
      docLines [
        "Check the arity of the tuple Tuple and jump to the corresponding",
        "destination label, if no arity matches, jump to FailLabel."],
      ["Tuple", "FailLabel", "Destinations"]⟩,
    ⟨61, "jump", 1, .control, [], none,
      docLines ["Jump to Label."], ["Label"]⟩,
    ⟨62, "catch", 2, .exception, [], none, none, []⟩,
    ⟨63, "catch_end", 1, .exception, [], none, none, []⟩,
    ⟨64, "move", 2, .data, [], none,
      docLines [
        "Move the source Source (a literal or a register) to",
        "the destination register Destination."], ["Source", "Destination"]⟩,
    ⟨65, "get_list", 3, .data, [], none,
      docLines [
        "Get the head and tail (or car and cdr) parts of a list",
        "(a cons cell) from Source and put them into the registers",
        "Head and Tail."], ["Source", "Head", "Tail"]⟩,
    ⟨66, "get_tuple_element", 3, .data, [], none,
      docLines [
        "Get element number Element from the tuple in Source and put",
        "it in the destination register Destination."], ["Source", "Element", "Destination"]⟩,
    ⟨67, "set_tuple_element", 3, .data, [], none,
      docLines [
        "Update the element at position Position of the tuple Tuple",
        "with the new element NewElement."], ["NewElement", "Tuple", "Position"]⟩,
    ⟨68, "put_string", 3, .data, [.deprecated], none, none, []⟩,
    ⟨69, "put_list", 3, .data, [], none, none, []⟩,
    ⟨70, "put_tuple", 2, .data, [.deprecated], none, none, []⟩,
    ⟨71, "put", 1, .data, [.deprecated], none, none, []⟩,
    ⟨72, "badmatch", 1, .error, [], none, none, []⟩,
    ⟨73, "if_end", 0, .error, [], none, none, []⟩,
    ⟨74, "case_end", 1, .error, [], none, none, []⟩,
    ⟨75, "call_fun", 1, .call, [.dynamicCall], none,
      docLines [
        "Call a fun of arity Arity. Assume arguments in",
        "registers x(0) to x(Arity-1) and that the fun is in x(Arity).",
        "Save the next instruction as the return address in the CP register."], ["Arity"]⟩,
    ⟨76, "make_fun", 3, .call, [.deprecated], none, none, []⟩,
    ⟨77, "is_function", 2, .control, [], none,
      docLines [
        "Test the type of Arg1 and jump to Lbl if it is not a",
        "function (i.e. fun or closure)."], ["Lbl", "Arg1"]⟩,
    ⟨78, "call_ext_only", 2, .call, [.externalCall, .tailCall], some 1,
      docLines [
        "Do a tail recursive call to the function at Label.",
        "Do not update the CP register."], ["Arity", "Label"]⟩,
    ⟨79, "bs_start_match", 2, .binary, [.deprecated], none, none, []⟩,
    ⟨80, "bs_get_integer", 5, .binary, [.deprecated], none, none, []⟩,
    ⟨81, "bs_get_float", 5, .binary, [.deprecated], none, none, []⟩,
    ⟨82, "bs_get_binary", 5, .binary, [.deprecated], none, none, []⟩,
    ⟨83, "bs_skip_bits", 4, .binary, [.deprecated], none, none, []⟩,
    ⟨84, "bs_test_tail", 2, .binary, [.deprecated], none, none, []⟩,
    ⟨85, "bs_save", 1, .binary, [.deprecated], none, none, []⟩,
    ⟨86, "bs_restore", 1, .binary, [.deprecated], none, none, []⟩,
    ⟨87, "bs_init", 2, .binary, [.deprecated], none, none, []⟩,
    ⟨88, "bs_final", 2, .binary, [.deprecated], none, none, []⟩,
    ⟨89, "bs_put_integer", 5, .binary, [.deprecated], none, none, []⟩,
    ⟨90, "bs_put_binary", 5, .binary, [.deprecated], none, none, []⟩,
    ⟨91, "bs_put_float", 5, .binary, [.deprecated], none, none, []⟩,
    ⟨92, "bs_put_string", 2, .binary, [.deprecated], none, none, []⟩,
    ⟨93, "bs_need_buf", 1, .binary, [.deprecated], none, none, []⟩,
    ⟨94, "fclearerror", 0, .float, [.deprecated], none, none, []⟩,
    ⟨95, "fcheckerror", 1, .float, [.deprecated], none, none, []⟩,
    ⟨96, "fmove", 2, .float, [], none, none, []⟩,
    ⟨97, "fconv", 2, .float, [], none, none, []⟩,
    ⟨98, "fadd", 4, .float, [], none, none, []⟩,
    ⟨99, "fsub", 4, .float, [], none, none, []⟩,
    ⟨100, "fmul", 4, .float, [], none, none, []⟩,
    ⟨101, "fdiv", 4, .float, [], none, none, []⟩,
    ⟨102, "fnegate", 3, .float, [], none, none, []⟩,
    ⟨103, "make_fun2", 1, .call, [], none, none, []⟩,
    ⟨104, "try", 2, .exception, [], none, none, []⟩,
    ⟨105, "try_end", 1, .exception, [], none, none, []⟩,
    ⟨106, "try_case", 1, .exception, [], none, none, []⟩,
    ⟨107, "try_case_end", 1, .exception, [], none, none, []⟩,
    ⟨108, "raise", 2, .exception, [], none, none, []⟩,
    ⟨109, "bs_init2", 6, .binary, [.deprecated], none, none, []⟩,
    ⟨110, "bs_bits_to_bytes", 3, .binary, [.deprecated], none, none, []⟩,
    ⟨111, "bs_add", 5, .binary, [.deprecated], none, none, []⟩,
    ⟨112, "apply", 1, .call, [.dynamicCall], none, none, []⟩,
    ⟨113, "apply_last", 2, .call, [.dynamicCall, .tailCall], none, none, []⟩,
    ⟨114, "is_boolean", 2, .control, [], none,
      docLines ["Test the type of Arg1 and jump to Lbl if it is not a Boolean."], ["Lbl", "Arg1"]⟩,
    ⟨115, "is_function2", 3, .control, [], none,
      docLines [
        "Test the type of Arg1 and jump to Lbl if it is not a",
        "function of arity Arity."], ["Lbl", "Arg1", "Arity"]⟩,
    ⟨116, "bs_start_match2", 5, .binary, [.deprecated], none, none, []⟩,
    ⟨117, "bs_get_integer2", 7, .binary, [], none, none, []⟩,
    ⟨118, "bs_get_float2", 7, .binary, [], none, none, []⟩,
    ⟨119, "bs_get_binary2", 7, .binary, [], none, none, []⟩,
    ⟨120, "bs_skip_bits2", 5, .binary, [], none, none, []⟩,
    ⟨121, "bs_test_tail2", 3, .binary, [], none, none, []⟩,
    ⟨122, "bs_save2", 2, .binary, [.deprecated], none, none, []⟩,
    ⟨123, "bs_restore2", 2, .binary, [.deprecated], none, none, []⟩,
    ⟨124, "gc_bif1", 5, .call, [.bifCall], some 2,
      docLines [
        "Call the bif Bif with the argument Arg, and store the result in Reg.",
        "On failure jump to Lbl.",
        "Do a garbage collection if necessary to allocate space on the heap",
        "for the result (saving Live number of X registers)."],
      ["Lbl", "Live", "Bif", "Arg", "Reg"]⟩,
    ⟨125, "gc_bif2", 6, .call, [.bifCall], some 2,
      docLines [
        "Call the bif Bif with the arguments Arg1 and Arg2,",
        "and store the result in Reg.",
        "On failure jump to Lbl.",
        "Do a garbage collection if necessary to allocate space on the heap",
        "for the result (saving Live number of X registers)."],
      ["Lbl", "Live", "Bif", "Arg1", "Arg2", "Reg"]⟩,
    ⟨126, "bs_final2", 2, .binary, [.deprecated], none, none, []⟩,
    ⟨127, "bs_bits_to_bytes2", 2, .binary, [.deprecated], none, none, []⟩,
    ⟨128, "put_literal", 2, .data, [.deprecated], none, none, []⟩,
    ⟨129, "is_bitstr", 2, .control, [], none, none, []⟩,
    ⟨130, "bs_context_to_binary", 1, .binary, [.deprecated], none, none, []⟩,
    ⟨131, "bs_test_unit", 3, .binary, [], none, none, []⟩,
    ⟨132, "bs_match_string", 4, .binary, [], none, none, []⟩,
    ⟨133, "bs_init_writable", 0, .binary, [.deprecated], none, none, []⟩,
    ⟨134, "bs_append", 8, .binary, [.deprecated], none, none, []⟩,
    ⟨135, "bs_private_append", 6, .binary, [.deprecated], none, none, []⟩,
    ⟨136, "trim", 2, .stack, [], none,
      docLines [
        "Reduce the stack usage by N words,",
        "keeping the CP on the top of the stack."], ["N", "Remaining"]⟩,
    ⟨137, "bs_init_bits", 6, .binary, [.deprecated], none, none, []⟩,
    ⟨138, "bs_get_utf8", 5, .binary, [], none, none, []⟩,
    ⟨139, "bs_skip_utf8", 4, .binary, [], none, none, []⟩,
    ⟨140, "bs_get_utf16", 5, .binary, [], none, none, []⟩,
    ⟨141, "bs_skip_utf16", 4, .binary, [], none, none, []⟩,
    ⟨142, "bs_get_utf32", 5, .binary, [], none, none, []⟩,
    ⟨143, "bs_skip_utf32", 4, .binary, [], none, none, []⟩,
    ⟨144, "bs_utf8_size", 3, .binary, [.deprecated], none, none, []⟩,
    ⟨145, "bs_put_utf8", 3, .binary, [.deprecated], none, none, []⟩,
    ⟨146, "bs_utf16_size", 3, .binary, [.deprecated], none, none, []⟩,
    ⟨147, "bs_put_utf16", 3, .binary, [.deprecated], none, none, []⟩,
    ⟨148, "bs_put_utf32", 3, .binary, [.deprecated], none, none, []⟩,
    ⟨149, "on_load", 0, .metadata, [], none, none, []⟩,
    ⟨150, "recv_mark", 1, .message, [.deprecated], none,
      docLines [
        "Save the end of the message queue and the address of",
        "the label Label so that a recv_set instruction can start",
        "scanning the inbox from this position."], ["Label"]⟩,
    ⟨151, "recv_set", 1, .message, [.deprecated], none,
      docLines [
        "Check that the saved mark points to Label and set the",
        "save pointer in the message queue to the last position",
        "of the message queue saved by the recv_mark instruction."], ["Label"]⟩,
    ⟨152, "gc_bif3", 7, .call, [.bifCall], some 2,
      docLines [
        "Call the bif Bif with the arguments Arg1, Arg2 and Arg3,",
        "and store the result in Reg.",
        "On failure jump to Lbl.",
        "Do a garbage collection if necessary to allocate space on the heap",
        "for the result (saving Live number of X registers)."],
      ["Lbl", "Live", "Bif", "Arg1", "Arg2", "Arg3", "Reg"]⟩,
    ⟨153, "line", 1, .metadata, [.lineMarker], none,
      docLines [
        "Associate the following instructions with the location",
        "entry Index of the line table."], ["Index"]⟩,
    ⟨154, "put_map_assoc", 5, .data, [], none, none, []⟩,
    ⟨155, "put_map_exact", 5, .data, [], none, none, []⟩,
    ⟨156, "is_map", 2, .control, [], none, none, []⟩,
    ⟨157, "has_map_fields", 3, .control, [], none, none, []⟩,
    ⟨158, "get_map_elements", 3, .data, [], none, none, []⟩,
    ⟨159, "is_tagged_tuple", 4, .control, [], none,
      docLines [
        "Test the type of Reg and jumps to Lbl if it is not a tuple.",
        "Test the arity of Reg and jumps to Lbl if it is not N.",
        "Test the first element of the tuple and jumps to Lbl if it is not Atom."],
      ["Lbl", "Reg", "N", "Atom"]⟩,
    ⟨160, "build_stacktrace", 0, .exception, [], none,
      docLines [
        "Given the raw stacktrace in x(0), build a cooked stacktrace suitable",
        "for human consumption. Store it in x(0). Destroys all other registers.",
        "Do a garbage collection if necessary to allocate space on the heap",
        "for the result."], []⟩,
    ⟨161, "raw_raise", 0, .exception, [], none,
      docLines [
        "This instruction works like the erlang:raise/3 BIF, except that the",
        "stacktrace in x(2) must be a raw stacktrace.",
        "x(0) is the class of the exception (error, exit, or throw),",
        "x(1) is the exception term, and x(2) is the raw stackframe.",
        "If x(0) is not a valid class, the instruction will not throw an",
        "exception, but store the atom 'badarg' in x(0) and execute the",
        "next instruction."], []⟩,
    ⟨162, "get_hd", 2, .data, [], none,
      docLines [
        "Get the head (or car) part of a list (a cons cell) from Source and",
        "put it into the register Head."], ["Source", "Head"]⟩,
    ⟨163, "get_tl", 2, .data, [], none,
      docLines [
        "Get the tail (or cdr) part of a list (a cons cell) from Source and",
        "put it into the register Tail."], ["Source", "Tail"]⟩,
    ⟨164, "put_tuple2", 2, .data, [], none,
      docLines [
        "Build a tuple with the elements in the list Elements and put it",
        "into register Destination."], ["Destination", "Elements"]⟩,
    ⟨165, "bs_get_tail", 3, .binary, [], none,
      docLines ["Sets Dst to the tail of Ctx at the current position"], ["Ctx", "Dst", "Live"]⟩,
    ⟨166, "bs_start_match3", 4, .binary, [], none,
      docLines ["Starts a binary match sequence"], ["Fail", "Bin", "Live", "Dst"]⟩,
    ⟨167, "bs_get_position", 3, .binary, [], none,
      docLines ["Sets Dst to the current position of Ctx"], ["Ctx", "Dst", "Live"]⟩,
    ⟨168, "bs_set_position", 2, .binary, [], none,
      docLines ["Sets the current position of Ctx to Pos"], ["Ctx", "Pos"]⟩,
    ⟨169, "swap", 2, .data, [], none,
      docLines ["Swaps the contents of two registers."], ["Register1", "Register2"]⟩,
    ⟨170, "bs_start_match4", 4, .binary, [], none,
      docLines [
        "As bs_start_match3, but the fail label can be 'no_fail' when we know",
        "it will never fail at runtime, or 'resume' when we know the input is",
        "a match context."], ["Fail", "Bin", "Live", "Dst"]⟩,
    ⟨171, "make_fun3", 3, .call, [], none,
      docLines [
        "Build a fun with the environment in the list EnvTerms and put it",
        "into register Dst."], ["OldIndex", "Dst", "EnvTerms"]⟩,
    ⟨172, "init_yregs", 1, .stack, [], none,
      docLines ["Initialize the Y registers in the list."], ["ListOfYRegs"]⟩,
    ⟨173, "recv_marker_bind", 2, .message, [], none,
      docLines ["Associates Reference with a previously reserved marker."],
      ["Marker", "Reference"]⟩,
    ⟨174, "recv_marker_clear", 1, .message, [], none,
      docLines ["Clears the receive marker associated with the given Reference."], ["Reference"]⟩,
    ⟨175, "recv_marker_reserve", 1, .message, [], none,
      docLines ["Creates a receive marker which can be later bound to a reference."], ["Marker"]⟩,
    ⟨176, "recv_marker_use", 1, .message, [], none,
      docLines [
        "Sets the current receive cursor to the marker associated with",
        "the given Reference."], ["Reference"]⟩,
    ⟨177, "bs_create_bin", 6, .binary, [], none,
      docLines ["Builds a new binary using the binary syntax."],
      ["Fail", "Alloc", "Live", "Unit", "Dst", "OpList"]⟩,
    ⟨178, "call_fun2", 3, .call, [.dynamicCall], none,
      docLines [
        "Calls the fun Func with arity Arity. Assume arguments in registers x(0)",
        "to x(Arity-1). Tag can be one of:",
        "",
        "* FunIndex - `Func` is always a local fun identified by `FunIndex`",
        "* \x7batom,safe\x7d - `Func` is known to be a fun of correct arity.",
        "* \x7batom,unsafe\x7d - Nothing is known about `Func`."], ["Tag", "Arity", "Func"]⟩,
    ⟨179, "nif_start", 0, .metadata, [], none,
      docLines ["No-op at start of each function declared in -nifs()."], []⟩,
    ⟨180, "badrecord", 1, .error, [], none,
      docLines ["Raises a \x7bbadrecord,Value\x7d error exception."], ["Value"]⟩,
    ⟨181, "update_record", 5, .data, [], none,
      docLines [
        "Sets Dst to a copy of Src with the update list applied. Hint can be",
        "one of:",
        "",
        "* \x7batom,copy\x7d - The result will always differ from Src, so don't",
        "bother checking if it can be reused.",
        "* \x7batom,reuse\x7d - Reuse Src if a runtime check deduces that it's",
        "equal to the result.",
        "* \x7batom,inplace\x7d - Src can be updated in-place."],
      ["Hint", "Size", "Src", "Dst", "Updates"]⟩,
    ⟨182, "bs_match", 3, .binary, [], none,
      docLines [
        "Match one or more binary segments of fixed size. Commands",
        "can be one of the following:",
        "",
        "* \x7bensure_at_least,Stride,Unit\x7d",
        "* \x7bensure_exactly,Stride\x7d",
        "* \x7bbinary,Live,Flags,Size,Unit,Dst\x7d",
        "* \x7binteger,Live,Flags,Size,Unit,Dst\x7d",
        "* \x7bskip,Stride\x7d",
        "* \x7bget_tail,Live,Unit,Dst\x7d",
        "* \x7b'=:=',Live,Size,Value\x7d."], ["Fail", "Ctx", "\x7bcommands,Commands\x7d"]⟩,
    ⟨183, "executable_line", 2, .metadata, [.lineMarker], none,
      docLines ["Provide location for an executable line."], ["Location", "Index"]⟩]

end BeamScope.Opcode
