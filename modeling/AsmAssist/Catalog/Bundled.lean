import AsmAssist.Catalog.Table

/-!
# Bundled documentation

The tables of the machine's instructions, directives and registers, for use when no others are given.
-/

namespace AsmAssist.Catalog

/-- The characters of a string. They are found where the string is written, so that nothing has to
decode it later. -/
def spelled {characters : Text} (s : String) (_ : String.ofList characters = s) : Text := characters

/-- A table with a line feed behind each row. -/
def tableOf (rows : List Text) : Text := rows.flatMap fun row => row ++ ['\n']

def bundledInstructionTable : Text := tableOf
  [spelled "ADD;ADD Rd, Rm, Rn;Adds Rm and Rn and stores the result in Rd.;ZCNO;false" rfl,
    spelled "ADDC;ADDC Rd, Rm, Rn;" rfl ++
      spelled "Adds Rm, Rn and the carry flag and stores the result in Rd.;ZCNO;false" rfl,
    spelled "SUB;SUB Rd, Rm, Rn;Subtracts Rn from Rm and stores the result in Rd.;ZCNO;false" rfl,
    spelled "SUBB;SUBB Rd, Rm, Rn;" rfl ++
      spelled "Subtracts Rn and the borrow from Rm and stores the result in Rd.;ZCNO;false" rfl,
    spelled "CMP;CMP Rm, Rn;" rfl ++
      spelled "Compares Rm with Rn by subtraction. Only the flags are updated.;ZCNO;false" rfl,
    spelled "NEG;NEG Rd;Replaces Rd with its two's complement.;ZCNO;false" rfl,
    spelled "INC;INC Rd;Adds one to Rd.;ZCNO;false" rfl,
    spelled "DEC;DEC Rd;Subtracts one from Rd.;ZCNO;false" rfl,
    spelled "AND;AND Rd, Rm, Rn;Bitwise AND of Rm and Rn, stored in Rd.;ZN;false" rfl,
    spelled "OR;OR Rd, Rm, Rn;Bitwise OR of Rm and Rn, stored in Rd.;ZN;false" rfl,
    spelled "XOR;XOR Rd, Rm, Rn;Bitwise exclusive OR of Rm and Rn, stored in Rd.;ZN;false" rfl,
    spelled "COM;COM Rd;Replaces Rd with its one's complement.;ZN;false" rfl,
    spelled "TEST;TEST Rm, Rn;Bitwise AND of Rm and Rn. Only the flags are updated.;ZN;false" rfl,
    spelled "SHL;SHL Rd, n;Logical shift of Rd left by n bits.;ZCN;false" rfl,
    spelled "SHR;SHR Rd, n;Logical shift of Rd right by n bits.;ZCN;false" rfl,
    spelled "SHLA;SHLA Rd, n;Arithmetic shift of Rd left by n bits.;ZCNO;false" rfl,
    spelled "SHRA;SHRA Rd, n;Arithmetic shift of Rd right by n bits, keeping the sign.;ZCN;false" rfl,
    spelled "ROL;ROL Rd, n;Rotates Rd left by n bits.;ZCN;false" rfl,
    spelled "ROR;ROR Rd, n;Rotates Rd right by n bits.;ZCN;false" rfl,
    spelled "ROLC;ROLC Rd, n;Rotates Rd left by n bits through the carry flag.;ZCN;false" rfl,
    spelled "RORC;RORC Rd, n;Rotates Rd right by n bits through the carry flag.;ZCN;false" rfl,
    spelled "MOV;MOV Rd, Rs;Copies Rs into Rd.;;false" rfl,
    spelled "MVI;MVI Rd, W;Loads the 16-bit constant W into Rd.;;false" rfl,
    spelled "MVIH;MVIH Rd, W;" rfl ++
      spelled "Loads the low byte of W into the high byte of Rd. " rfl ++
      spelled "The low byte of Rd is kept.;;false" rfl,
    spelled "MVIL;MVIL Rd, W;" rfl ++
      spelled "Loads the low byte of W into the low byte of Rd. " rfl ++
      spelled "The high byte of Rd is kept.;;false" rfl,
    spelled "LOAD;LOAD Rd, M[Rs];Reads the memory word addressed by Rs into Rd.;;false" rfl,
    spelled "STOR;STOR M[Rd], Rs;Writes Rs to the memory word addressed by Rd.;;false" rfl,
    spelled "JMP;JMP[.cond] Rs;" rfl ++
      spelled "Jumps to the address in Rs. " rfl ++
      spelled "With a condition the jump only happens when it holds.;;false" rfl,
    spelled "BR;BR[.cond] W;" rfl ++
      spelled "Branches to the address W relative to PC. " rfl ++
      spelled "With a condition the branch only happens when it holds.;;false" rfl,
    spelled "CALL;CALL W;Calls the subroutine at address W.;;false" rfl,
    spelled "JAL;JAL[.cond] W;Jumps to W and stores the return address in R7.;;false" rfl,
    spelled "INT;INT n;Raises software interrupt n.;;false" rfl,
    spelled "RTI;RTI;" rfl ++
      spelled "Returns from an interrupt service routine and restores the flags.;ZCNOE;false" rfl,
    spelled "ENI;ENI;Enables interrupts.;E;false" rfl,
    spelled "DSI;DSI;Disables interrupts.;E;false" rfl,
    spelled "STC;STC;Sets the carry flag.;C;false" rfl,
    spelled "CLC;CLC;Clears the carry flag.;C;false" rfl,
    spelled "CMC;CMC;Complements the carry flag.;C;false" rfl,
    spelled "NOP;NOP;Does nothing.;;false" rfl,
    spelled "ORIG;ORIG W;Places the code or data that follows at address W.;;true" rfl,
    spelled "OPT;OPT option;Sets an assembler option.;;true" rfl,
    spelled "EQU;name EQU W;Defines name as the constant W. No memory is reserved.;;true" rfl,
    spelled "WORD;name WORD W;" rfl ++
      spelled "Reserves one memory word initialized to W and names its address.;;true" rfl,
    spelled "STR;name STR 'text', W;" rfl ++
      spelled "Reserves one memory word per character or value and names the first " rfl ++
      spelled "address.;;true" rfl,
    spelled "TAB;name TAB n;Reserves n memory words and names the first address.;;true" rfl]

def bundledRegisterTable : Text := tableOf
  [spelled "R0;Always reads as zero. Writes are ignored.;" rfl,
    spelled "R1;General purpose register.;" rfl,
    spelled "R2;General purpose register.;" rfl,
    spelled "R3;General purpose register.;" rfl,
    spelled "R4;General purpose register.;" rfl,
    spelled "R5;General purpose register.;" rfl,
    spelled "R6;General purpose register.;" rfl,
    spelled "R7;General purpose register. JAL stores the return address here.;" rfl,
    spelled "R11;Reserved register.;" rfl,
    spelled "R12;Reserved register.;" rfl,
    spelled "R13;Status register holding the Z C N O E flags.;RE" rfl,
    spelled "R14;Stack pointer.;SP" rfl,
    spelled "R15;Program counter.;PC" rfl]

/-- The catalog of the bundled tables. It would be empty if they could not be read. -/
def bundled : Catalog :=
  (parse bundledInstructionTable bundledRegisterTable).toOption.getD (ofEntries [] [])

end AsmAssist.Catalog
