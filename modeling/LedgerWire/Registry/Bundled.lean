import LedgerWire.Registry.Basic

namespace LedgerWire.Bundled

/-! ## The definitions of the ledger's own network -/

/-- The codes of the types. -/
def types : List (String × Int) :=
  [("Done", -1), ("Unknown", -2), ("NotPresent", 0), ("UInt16", 1), ("UInt32", 2),
    ("UInt64", 3), ("Hash128", 4), ("Hash256", 5), ("Amount", 6), ("Blob", 7),
    ("AccountID", 8), ("STObject", 14), ("STArray", 15), ("UInt8", 16), ("Hash160", 17),
    ("PathSet", 18), ("Vector256", 19), ("UInt96", 20), ("UInt192", 21), ("UInt384", 22),
    ("UInt512", 23), ("Transaction", 10001), ("LedgerEntry", 10002), ("Validation", 10003),
    ("Metadata", 10004)]

/-- The codes of the kinds of ledger entries. -/
def ledgerEntryTypes : List (String × Int) :=
  [("Invalid", -1), ("AccountRoot", 97), ("DirectoryNode", 100), ("RippleState", 114),
    ("Ticket", 84), ("SignerList", 83), ("Offer", 111), ("LedgerHashes", 104),
    ("Amendments", 102), ("FeeSettings", 115), ("Escrow", 117), ("PayChannel", 120),
    ("Check", 67), ("DepositPreauth", 112), ("NegativeUNL", 78), ("NFTokenPage", 80),
    ("NFTokenOffer", 55), ("Hook", 72), ("HookDefinition", 68), ("HookState", 118),
    ("EmittedTxn", 69), ("URIToken", 85), ("ImportVLSequence", 73), ("UNLReport", 82),
    ("Any", -3), ("Child", -2)]

/-- The codes of the outcomes of transactions. -/
def transactionResults : List (String × Int) :=
  [("telLOCAL_ERROR", -399), ("telBAD_DOMAIN", -398), ("telBAD_PATH_COUNT", -397),
    ("telBAD_PUBLIC_KEY", -396), ("telFAILED_PROCESSING", -395), ("telINSUF_FEE_P", -394),
    ("telNO_DST_PARTIAL", -393), ("telCAN_NOT_QUEUE", -392), ("temMALFORMED", -299),
    ("temBAD_AMOUNT", -298), ("temBAD_CURRENCY", -297), ("temBAD_EXPIRATION", -296),
    ("temBAD_FEE", -295), ("temBAD_ISSUER", -294), ("temBAD_LIMIT", -293),
    ("temBAD_OFFER", -292), ("temBAD_PATH", -291), ("temBAD_PATH_LOOP", -290),
    ("temBAD_REGKEY", -289), ("temBAD_SEND_XRP_LIMIT", -288), ("temBAD_SEND_XRP_MAX", -287),
    ("temBAD_SEND_XRP_NO_DIRECT", -286), ("temBAD_SEND_XRP_PARTIAL", -285),
    ("temBAD_SEND_XRP_PATHS", -284), ("temBAD_SEQUENCE", -283), ("temBAD_SIGNATURE", -282),
    ("temBAD_SRC_ACCOUNT", -281), ("temBAD_TRANSFER_RATE", -280), ("temDST_IS_SRC", -279),
    ("temDST_NEEDED", -278), ("temINVALID", -277), ("temINVALID_FLAG", -276),
    ("temREDUNDANT", -275), ("temRIPPLE_EMPTY", -274), ("temDISABLED", -273),
    ("temBAD_SIGNER", -272), ("temBAD_QUORUM", -271), ("temBAD_WEIGHT", -270),
    ("temBAD_TICK_SIZE", -269), ("temINVALID_ACCOUNT_ID", -268),
    ("temCANNOT_PREAUTH_SELF", -267), ("temUNCERTAIN", -266), ("temUNKNOWN", -265),
    ("temSEQ_AND_TICKET", -264), ("temBAD_NFTOKEN_TRANSFER_FEE", -263),
    ("tefFAILURE", -199), ("tefALREADY", -198), ("tefBAD_ADD_AUTH", -197),
    ("tefBAD_AUTH", -196), ("tefBAD_LEDGER", -195), ("tefCREATED", -194),
    ("tefEXCEPTION", -193), ("tefINTERNAL", -192), ("tefNO_AUTH_REQUIRED", -191),
    ("tefPAST_SEQ", -190), ("tefWRONG_PRIOR", -189), ("tefMASTER_DISABLED", -188),
    ("tefMAX_LEDGER", -187), ("tefBAD_SIGNATURE", -186), ("tefBAD_QUORUM", -185),
    ("tefNOT_MULTI_SIGNING", -184), ("tefBAD_AUTH_MASTER", -183),
    ("tefINVARIANT_FAILED", -182), ("tefTOO_BIG", -181), ("tefNO_TICKET", -180),
    ("terRETRY", -99), ("terFUNDS_SPENT", -98), ("terINSUF_FEE_B", -97),
    ("terNO_ACCOUNT", -96), ("terNO_AUTH", -95), ("terNO_LINE", -94), ("terOWNERS", -93),
    ("terPRE_SEQ", -92), ("terLAST", -91), ("terNO_RIPPLE", -90), ("terQUEUED", -89),
    ("terPRE_TICKET", -88), ("tesSUCCESS", 0), ("tecCLAIM", 100), ("tecPATH_PARTIAL", 101),
    ("tecUNFUNDED_ADD", 102), ("tecUNFUNDED_OFFER", 103), ("tecUNFUNDED_PAYMENT", 104),
    ("tecFAILED_PROCESSING", 105), ("tecDIR_FULL", 121), ("tecINSUF_RESERVE_LINE", 122),
    ("tecINSUF_RESERVE_OFFER", 123), ("tecNO_DST", 124), ("tecNO_DST_INSUF_XRP", 125),
    ("tecNO_LINE_INSUF_RESERVE", 126), ("tecNO_LINE_REDUNDANT", 127), ("tecPATH_DRY", 128),
    ("tecUNFUNDED", 129), ("tecNO_ALTERNATIVE_KEY", 130), ("tecNO_REGULAR_KEY", 131),
    ("tecOWNERS", 132), ("tecNO_ISSUER", 133), ("tecNO_AUTH", 134), ("tecNO_LINE", 135),
    ("tecINSUFF_FEE", 136), ("tecFROZEN", 137), ("tecNO_TARGET", 138),
    ("tecNO_PERMISSION", 139), ("tecNO_ENTRY", 140), ("tecINSUFFICIENT_RESERVE", 141),
    ("tecNEED_MASTER_KEY", 142), ("tecDST_TAG_NEEDED", 143), ("tecINTERNAL", 144),
    ("tecOVERSIZE", 145), ("tecCRYPTOCONDITION_ERROR", 146), ("tecINVARIANT_FAILED", 147),
    ("tecEXPIRED", 148), ("tecDUPLICATE", 149), ("tecKILLED", 150),
    ("tecHAS_OBLIGATIONS", 151), ("tecTOO_SOON", 152), ("tecHOOK_REJECTED", 153),
    ("tecMAX_SEQUENCE_REACHED", 154), ("tecNO_SUITABLE_NFTOKEN_PAGE", 155),
    ("tecNFTOKEN_BUY_SELL_MISMATCH", 156), ("tecNFTOKEN_OFFER_TYPE_MISMATCH", 157),
    ("tecCANT_ACCEPT_OWN_NFTOKEN_OFFER", 158), ("tecINSUFFICIENT_FUNDS", 159),
    ("tecOBJECT_NOT_FOUND", 160), ("tecINSUFFICIENT_PAYMENT", 161),
    ("tecREQUIRES_FLAG", 162), ("tecPRECISION_LOSS", 163)]

/-- The codes of the kinds of transactions. -/
def transactionTypes : List (String × Int) :=
  [("Invalid", -1), ("Payment", 0), ("EscrowCreate", 1), ("EscrowFinish", 2),
    ("AccountSet", 3), ("EscrowCancel", 4), ("SetRegularKey", 5), ("NickNameSet", 6),
    ("OfferCreate", 7), ("OfferCancel", 8), ("Contract", 9), ("TicketCreate", 10),
    ("TicketCancel", 11), ("SignerListSet", 12), ("PaymentChannelCreate", 13),
    ("PaymentChannelFund", 14), ("PaymentChannelClaim", 15), ("CheckCreate", 16),
    ("CheckCash", 17), ("CheckCancel", 18), ("DepositPreauth", 19), ("TrustSet", 20),
    ("AccountDelete", 21), ("SetHook", 22), ("NFTokenMint", 25), ("NFTokenBurn", 26),
    ("NFTokenCreateOffer", 27), ("NFTokenCancelOffer", 28), ("NFTokenAcceptOffer", 29),
    ("URITokenMint", 45), ("URITokenBurn", 46), ("URITokenBuy", 47),
    ("URITokenCreateSellOffer", 48), ("URITokenCancelSellOffer", 49), ("GenesisMint", 96),
    ("Import", 97), ("ClaimReward", 98), ("Invoke", 99), ("EnableAmendment", 100),
    ("SetFee", 101), ("UNLModify", 102), ("EmitFailure", 103), ("UNLReport", 104)]

/-- The fields: name, type and its code, number within the type, and whether they
are length-prefixed, serialized and signed. -/
def fields : List Field :=
  [⟨"ObjectEndMarker", "STObject", 14, 1, false, true, true⟩,
    ⟨"ArrayEndMarker", "STArray", 15, 1, false, true, true⟩,
    ⟨"hash", "Hash256", 5, 257, false, false, false⟩,
    ⟨"index", "Hash256", 5, 258, false, false, false⟩,
    ⟨"taker_gets_funded", "Amount", 6, 258, false, false, false⟩,
    ⟨"taker_pays_funded", "Amount", 6, 259, false, false, false⟩,
    ⟨"CloseResolution", "UInt8", 16, 1, false, true, true⟩,
    ⟨"Method", "UInt8", 16, 2, false, true, true⟩,
    ⟨"TransactionResult", "UInt8", 16, 3, false, true, true⟩,
    ⟨"TickSize", "UInt8", 16, 16, false, true, true⟩,
    ⟨"UNLModifyDisabling", "UInt8", 16, 17, false, true, true⟩,
    ⟨"HookResult", "UInt8", 16, 18, false, true, true⟩,
    ⟨"LedgerEntryType", "UInt16", 1, 1, false, true, true⟩,
    ⟨"TransactionType", "UInt16", 1, 2, false, true, true⟩,
    ⟨"SignerWeight", "UInt16", 1, 3, false, true, true⟩,
    ⟨"TransferFee", "UInt16", 1, 4, false, true, true⟩,
    ⟨"Version", "UInt16", 1, 16, false, true, true⟩,
    ⟨"HookStateChangeCount", "UInt16", 1, 17, false, true, true⟩,
    ⟨"HookEmitCount", "UInt16", 1, 18, false, true, true⟩,
    ⟨"HookExecutionIndex", "UInt16", 1, 19, false, true, true⟩,
    ⟨"HookApiVersion", "UInt16", 1, 20, false, true, true⟩,
    ⟨"NetworkID", "UInt32", 2, 1, false, true, true⟩,
    ⟨"Flags", "UInt32", 2, 2, false, true, true⟩,
    ⟨"SourceTag", "UInt32", 2, 3, false, true, true⟩,
    ⟨"Sequence", "UInt32", 2, 4, false, true, true⟩,
    ⟨"PreviousTxnLgrSeq", "UInt32", 2, 5, false, true, true⟩,
    ⟨"LedgerSequence", "UInt32", 2, 6, false, true, true⟩,
    ⟨"CloseTime", "UInt32", 2, 7, false, true, true⟩,
    ⟨"ParentCloseTime", "UInt32", 2, 8, false, true, true⟩,
    ⟨"SigningTime", "UInt32", 2, 9, false, true, true⟩,
    ⟨"Expiration", "UInt32", 2, 10, false, true, true⟩,
    ⟨"TransferRate", "UInt32", 2, 11, false, true, true⟩,
    ⟨"WalletSize", "UInt32", 2, 12, false, true, true⟩,
    ⟨"OwnerCount", "UInt32", 2, 13, false, true, true⟩,
    ⟨"DestinationTag", "UInt32", 2, 14, false, true, true⟩,
    ⟨"HighQualityIn", "UInt32", 2, 16, false, true, true⟩,
    ⟨"HighQualityOut", "UInt32", 2, 17, false, true, true⟩,
    ⟨"LowQualityIn", "UInt32", 2, 18, false, true, true⟩,
    ⟨"LowQualityOut", "UInt32", 2, 19, false, true, true⟩,
    ⟨"QualityIn", "UInt32", 2, 20, false, true, true⟩,
    ⟨"QualityOut", "UInt32", 2, 21, false, true, true⟩,
    ⟨"StampEscrow", "UInt32", 2, 22, false, true, true⟩,
    ⟨"BondAmount", "UInt32", 2, 23, false, true, true⟩,
    ⟨"LoadFee", "UInt32", 2, 24, false, true, true⟩,
    ⟨"OfferSequence", "UInt32", 2, 25, false, true, true⟩,
    ⟨"FirstLedgerSequence", "UInt32", 2, 26, false, true, true⟩,
    ⟨"LastLedgerSequence", "UInt32", 2, 27, false, true, true⟩,
    ⟨"TransactionIndex", "UInt32", 2, 28, false, true, true⟩,
    ⟨"OperationLimit", "UInt32", 2, 29, false, true, true⟩,
    ⟨"ReferenceFeeUnits", "UInt32", 2, 30, false, true, true⟩,
    ⟨"ReserveBase", "UInt32", 2, 31, false, true, true⟩,
    ⟨"ReserveIncrement", "UInt32", 2, 32, false, true, true⟩,
    ⟨"SetFlag", "UInt32", 2, 33, false, true, true⟩,
    ⟨"ClearFlag", "UInt32", 2, 34, false, true, true⟩,
    ⟨"SignerQuorum", "UInt32", 2, 35, false, true, true⟩,
    ⟨"CancelAfter", "UInt32", 2, 36, false, true, true⟩,
    ⟨"FinishAfter", "UInt32", 2, 37, false, true, true⟩,
    ⟨"SignerListID", "UInt32", 2, 38, false, true, true⟩,
    ⟨"SettleDelay", "UInt32", 2, 39, false, true, true⟩,
    ⟨"TicketCount", "UInt32", 2, 40, false, true, true⟩,
    ⟨"TicketSequence", "UInt32", 2, 41, false, true, true⟩,
    ⟨"NFTokenTaxon", "UInt32", 2, 42, false, true, true⟩,
    ⟨"MintedNFTokens", "UInt32", 2, 43, false, true, true⟩,
    ⟨"BurnedNFTokens", "UInt32", 2, 44, false, true, true⟩,
    ⟨"HookStateCount", "UInt32", 2, 45, false, true, true⟩,
    ⟨"EmitGeneration", "UInt32", 2, 46, false, true, true⟩,
    ⟨"LockCount", "UInt32", 2, 49, false, true, true⟩,
    ⟨"RewardTime", "UInt32", 2, 98, false, true, true⟩,
    ⟨"RewardLgrFirst", "UInt32", 2, 99, false, true, true⟩,
    ⟨"RewardLgrLast", "UInt32", 2, 100, false, true, true⟩,
    ⟨"ImportSequence", "UInt32", 2, 97, false, true, true⟩,
    ⟨"IndexNext", "UInt64", 3, 1, false, true, true⟩,
    ⟨"IndexPrevious", "UInt64", 3, 2, false, true, true⟩,
    ⟨"BookNode", "UInt64", 3, 3, false, true, true⟩,
    ⟨"OwnerNode", "UInt64", 3, 4, false, true, true⟩,
    ⟨"BaseFee", "UInt64", 3, 5, false, true, true⟩,
    ⟨"ExchangeRate", "UInt64", 3, 6, false, true, true⟩,
    ⟨"LowNode", "UInt64", 3, 7, false, true, true⟩,
    ⟨"HighNode", "UInt64", 3, 8, false, true, true⟩,
    ⟨"DestinationNode", "UInt64", 3, 9, false, true, true⟩,
    ⟨"Cookie", "UInt64", 3, 10, false, true, true⟩,
    ⟨"ServerVersion", "UInt64", 3, 11, false, true, true⟩,
    ⟨"NFTokenOfferNode", "UInt64", 3, 12, false, true, true⟩,
    ⟨"EmitBurden", "UInt64", 3, 13, false, true, true⟩,
    ⟨"HookInstructionCount", "UInt64", 3, 17, false, true, true⟩,
    ⟨"HookReturnCode", "UInt64", 3, 18, false, true, true⟩,
    ⟨"ReferenceCount", "UInt64", 3, 19, false, true, true⟩,
    ⟨"AccountIndex", "UInt64", 3, 98, false, true, true⟩,
    ⟨"AccountCount", "UInt64", 3, 97, false, true, true⟩,
    ⟨"RewardAccumulator", "UInt64", 3, 100, false, true, true⟩,
    ⟨"EmailHash", "Hash128", 4, 1, false, true, true⟩,
    ⟨"TakerPaysCurrency", "Hash160", 17, 1, false, true, true⟩,
    ⟨"TakerPaysIssuer", "Hash160", 17, 2, false, true, true⟩,
    ⟨"TakerGetsCurrency", "Hash160", 17, 3, false, true, true⟩,
    ⟨"TakerGetsIssuer", "Hash160", 17, 4, false, true, true⟩,
    ⟨"LedgerHash", "Hash256", 5, 1, false, true, true⟩,
    ⟨"ParentHash", "Hash256", 5, 2, false, true, true⟩,
    ⟨"TransactionHash", "Hash256", 5, 3, false, true, true⟩,
    ⟨"AccountHash", "Hash256", 5, 4, false, true, true⟩,
    ⟨"PreviousTxnID", "Hash256", 5, 5, false, true, true⟩,
    ⟨"LedgerIndex", "Hash256", 5, 6, false, true, true⟩,
    ⟨"WalletLocator", "Hash256", 5, 7, false, true, true⟩,
    ⟨"RootIndex", "Hash256", 5, 8, false, true, true⟩,
    ⟨"AccountTxnID", "Hash256", 5, 9, false, true, true⟩,
    ⟨"NFTokenID", "Hash256", 5, 10, false, true, true⟩,
    ⟨"EmitParentTxnID", "Hash256", 5, 11, false, true, true⟩,
    ⟨"EmitNonce", "Hash256", 5, 12, false, true, true⟩,
    ⟨"EmitHookHash", "Hash256", 5, 13, false, true, true⟩,
    ⟨"BookDirectory", "Hash256", 5, 16, false, true, true⟩,
    ⟨"InvoiceID", "Hash256", 5, 17, false, true, true⟩,
    ⟨"Nickname", "Hash256", 5, 18, false, true, true⟩,
    ⟨"Amendment", "Hash256", 5, 19, false, true, true⟩,
    ⟨"HookOn", "Hash256", 5, 20, false, true, true⟩,
    ⟨"Digest", "Hash256", 5, 21, false, true, true⟩,
    ⟨"Channel", "Hash256", 5, 22, false, true, true⟩,
    ⟨"ConsensusHash", "Hash256", 5, 23, false, true, true⟩,
    ⟨"CheckID", "Hash256", 5, 24, false, true, true⟩,
    ⟨"ValidatedHash", "Hash256", 5, 25, false, true, true⟩,
    ⟨"PreviousPageMin", "Hash256", 5, 26, false, true, true⟩,
    ⟨"NextPageMin", "Hash256", 5, 27, false, true, true⟩,
    ⟨"NFTokenBuyOffer", "Hash256", 5, 28, false, true, true⟩,
    ⟨"NFTokenSellOffer", "Hash256", 5, 29, false, true, true⟩,
    ⟨"HookStateKey", "Hash256", 5, 30, false, true, true⟩,
    ⟨"HookHash", "Hash256", 5, 31, false, true, true⟩,
    ⟨"HookNamespace", "Hash256", 5, 32, false, true, true⟩,
    ⟨"HookSetTxnID", "Hash256", 5, 33, false, true, true⟩,
    ⟨"OfferID", "Hash256", 5, 34, false, true, true⟩,
    ⟨"EscrowID", "Hash256", 5, 35, false, true, true⟩,
    ⟨"URITokenID", "Hash256", 5, 36, false, true, true⟩,
    ⟨"HookCanEmit", "Hash256", 5, 96, false, true, true⟩,
    ⟨"EmittedTxnID", "Hash256", 5, 97, false, true, true⟩,
    ⟨"GovernanceMarks", "Hash256", 5, 98, false, true, true⟩,
    ⟨"GovernanceFlags", "Hash256", 5, 99, false, true, true⟩,
    ⟨"Amount", "Amount", 6, 1, false, true, true⟩,
    ⟨"Balance", "Amount", 6, 2, false, true, true⟩,
    ⟨"LimitAmount", "Amount", 6, 3, false, true, true⟩,
    ⟨"TakerPays", "Amount", 6, 4, false, true, true⟩,
    ⟨"TakerGets", "Amount", 6, 5, false, true, true⟩,
    ⟨"LowLimit", "Amount", 6, 6, false, true, true⟩,
    ⟨"HighLimit", "Amount", 6, 7, false, true, true⟩,
    ⟨"Fee", "Amount", 6, 8, false, true, true⟩,
    ⟨"SendMax", "Amount", 6, 9, false, true, true⟩,
    ⟨"DeliverMin", "Amount", 6, 10, false, true, true⟩,
    ⟨"MinimumOffer", "Amount", 6, 16, false, true, true⟩,
    ⟨"RippleEscrow", "Amount", 6, 17, false, true, true⟩,
    ⟨"DeliveredAmount", "Amount", 6, 18, false, true, true⟩,
    ⟨"NFTokenBrokerFee", "Amount", 6, 19, false, true, true⟩,
    ⟨"HookCallbackFee", "Amount", 6, 20, false, true, true⟩,
    ⟨"LockedBalance", "Amount", 6, 21, false, true, true⟩,
    ⟨"BaseFeeDrops", "Amount", 6, 22, false, true, true⟩,
    ⟨"ReserveBaseDrops", "Amount", 6, 23, false, true, true⟩,
    ⟨"ReserveIncrementDrops", "Amount", 6, 24, false, true, true⟩,
    ⟨"PublicKey", "Blob", 7, 1, true, true, true⟩,
    ⟨"MessageKey", "Blob", 7, 2, true, true, true⟩,
    ⟨"SigningPubKey", "Blob", 7, 3, true, true, true⟩,
    ⟨"TxnSignature", "Blob", 7, 4, true, true, false⟩,
    ⟨"URI", "Blob", 7, 5, true, true, true⟩,
    ⟨"Signature", "Blob", 7, 6, true, true, false⟩,
    ⟨"Domain", "Blob", 7, 7, true, true, true⟩,
    ⟨"FundCode", "Blob", 7, 8, true, true, true⟩,
    ⟨"RemoveCode", "Blob", 7, 9, true, true, true⟩,
    ⟨"ExpireCode", "Blob", 7, 10, true, true, true⟩,
    ⟨"CreateCode", "Blob", 7, 11, true, true, true⟩,
    ⟨"MemoType", "Blob", 7, 12, true, true, true⟩,
    ⟨"MemoData", "Blob", 7, 13, true, true, true⟩,
    ⟨"MemoFormat", "Blob", 7, 14, true, true, true⟩,
    ⟨"Fulfillment", "Blob", 7, 16, true, true, true⟩,
    ⟨"Condition", "Blob", 7, 17, true, true, true⟩,
    ⟨"MasterSignature", "Blob", 7, 18, true, true, false⟩,
    ⟨"UNLModifyValidator", "Blob", 7, 19, true, true, true⟩,
    ⟨"ValidatorToDisable", "Blob", 7, 20, true, true, true⟩,
    ⟨"ValidatorToReEnable", "Blob", 7, 21, true, true, true⟩,
    ⟨"HookStateData", "Blob", 7, 22, true, true, true⟩,
    ⟨"HookReturnString", "Blob", 7, 23, true, true, true⟩,
    ⟨"HookParameterName", "Blob", 7, 24, true, true, true⟩,
    ⟨"HookParameterValue", "Blob", 7, 25, true, true, true⟩,
    ⟨"Blob", "Blob", 7, 26, true, true, true⟩,
    ⟨"Account", "AccountID", 8, 1, true, true, true⟩,
    ⟨"Owner", "AccountID", 8, 2, true, true, true⟩,
    ⟨"Destination", "AccountID", 8, 3, true, true, true⟩,
    ⟨"Issuer", "AccountID", 8, 4, true, true, true⟩,
    ⟨"Authorize", "AccountID", 8, 5, true, true, true⟩,
    ⟨"Unauthorize", "AccountID", 8, 6, true, true, true⟩,
    ⟨"RegularKey", "AccountID", 8, 8, true, true, true⟩,
    ⟨"NFTokenMinter", "AccountID", 8, 9, true, true, true⟩,
    ⟨"EmitCallback", "AccountID", 8, 10, true, true, true⟩,
    ⟨"HookAccount", "AccountID", 8, 16, true, true, true⟩,
    ⟨"Inform", "AccountID", 8, 99, true, true, true⟩,
    ⟨"Indexes", "Vector256", 19, 1, true, true, true⟩,
    ⟨"Hashes", "Vector256", 19, 2, true, true, true⟩,
    ⟨"Amendments", "Vector256", 19, 3, true, true, true⟩,
    ⟨"NFTokenOffers", "Vector256", 19, 4, true, true, true⟩,
    ⟨"HookNamespaces", "Vector256", 19, 5, true, true, true⟩,
    ⟨"URITokenIDs", "Vector256", 19, 99, true, true, true⟩,
    ⟨"Paths", "PathSet", 18, 1, false, true, true⟩,
    ⟨"TransactionMetaData", "STObject", 14, 2, false, true, true⟩,
    ⟨"CreatedNode", "STObject", 14, 3, false, true, true⟩,
    ⟨"DeletedNode", "STObject", 14, 4, false, true, true⟩,
    ⟨"ModifiedNode", "STObject", 14, 5, false, true, true⟩,
    ⟨"PreviousFields", "STObject", 14, 6, false, true, true⟩,
    ⟨"FinalFields", "STObject", 14, 7, false, true, true⟩,
    ⟨"NewFields", "STObject", 14, 8, false, true, true⟩,
    ⟨"TemplateEntry", "STObject", 14, 9, false, true, true⟩,
    ⟨"Memo", "STObject", 14, 10, false, true, true⟩,
    ⟨"SignerEntry", "STObject", 14, 11, false, true, true⟩,
    ⟨"NFToken", "STObject", 14, 12, false, true, true⟩,
    ⟨"EmitDetails", "STObject", 14, 13, false, true, true⟩,
    ⟨"Hook", "STObject", 14, 14, false, true, true⟩,
    ⟨"Signer", "STObject", 14, 16, false, true, true⟩,
    ⟨"Majority", "STObject", 14, 18, false, true, true⟩,
    ⟨"DisabledValidator", "STObject", 14, 19, false, true, true⟩,
    ⟨"EmittedTxn", "STObject", 14, 20, false, true, true⟩,
    ⟨"HookExecution", "STObject", 14, 21, false, true, true⟩,
    ⟨"HookDefinition", "STObject", 14, 22, false, true, true⟩,
    ⟨"HookParameter", "STObject", 14, 23, false, true, true⟩,
    ⟨"HookGrant", "STObject", 14, 24, false, true, true⟩,
    ⟨"GenesisMint", "STObject", 14, 96, false, true, true⟩,
    ⟨"ActiveValidator", "STObject", 14, 95, false, true, true⟩,
    ⟨"ImportVLKey", "STObject", 14, 94, false, true, true⟩,
    ⟨"HookEmission", "STObject", 14, 93, false, true, true⟩,
    ⟨"MintURIToken", "STObject", 14, 92, false, true, true⟩,
    ⟨"Signers", "STArray", 15, 3, false, true, false⟩,
    ⟨"SignerEntries", "STArray", 15, 4, false, true, true⟩,
    ⟨"Template", "STArray", 15, 5, false, true, true⟩,
    ⟨"Necessary", "STArray", 15, 6, false, true, true⟩,
    ⟨"Sufficient", "STArray", 15, 7, false, true, true⟩,
    ⟨"AffectedNodes", "STArray", 15, 8, false, true, true⟩,
    ⟨"Memos", "STArray", 15, 9, false, true, true⟩,
    ⟨"NFTokens", "STArray", 15, 10, false, true, true⟩,
    ⟨"Hooks", "STArray", 15, 11, false, true, true⟩,
    ⟨"Majorities", "STArray", 15, 16, false, true, true⟩,
    ⟨"DisabledValidators", "STArray", 15, 17, false, true, true⟩,
    ⟨"HookExecutions", "STArray", 15, 18, false, true, true⟩,
    ⟨"HookParameters", "STArray", 15, 19, false, true, true⟩,
    ⟨"HookGrants", "STArray", 15, 20, false, true, true⟩,
    ⟨"GenesisMints", "STArray", 15, 96, false, true, true⟩,
    ⟨"ActiveValidators", "STArray", 15, 95, false, true, true⟩,
    ⟨"ImportVLKeys", "STArray", 15, 94, false, true, true⟩,
    ⟨"HookEmissions", "STArray", 15, 93, false, true, true⟩]

end LedgerWire.Bundled

namespace LedgerWire.Registry

/-- The registry of the ledger's own network. -/
def bundled : Registry where
  fields := Bundled.fields
  types := Bundled.types
  transactionTypes := ⟨.transactionType, Bundled.transactionTypes⟩
  ledgerEntryTypes := ⟨.ledgerEntryType, Bundled.ledgerEntryTypes⟩
  transactionResults := ⟨.transactionResult, Bundled.transactionResults⟩

end LedgerWire.Registry
